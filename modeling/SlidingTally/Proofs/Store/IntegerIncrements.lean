import SlidingTally.Proofs.Number.IntegerTexts
import SlidingTally.Proofs.Store.MemoryView

/-!
# Increments of what is there

The in-memory store adds one to whatever number a value denotes, where those who read the value later
want an integer written out. The two go together exactly for the values that both take for an integer
or both refuse, and an increment that is refused leaves everything as it was. Main statement:
`increment_follows_iff`.
-/

namespace SlidingTally.MemoryStore

open Binary64 (wholeLimit)
open Numeral (LooselyWhole)

-- ---------------------------------------------------------------------------
-- What an increment goes by
-- ---------------------------------------------------------------------------

def notInteger (name : String) : Fault := .plain ("Value at " ++ name ++ " is not an integer")

/-- What an increment of an entry leaves behind if it goes by a reading of the value: one is added to
the number that is read and the expiry stays, and without a number nothing changes. -/
def Follows (reading : Except Fault Binary64) (name : String) (entry : Entry) (s : State)
    (o : Outcome LogLine Fault State Value) : Prop :=
  match reading with
  | .ok x => o.reply = .ok (.number (x + 1)) ∧
      o.state = s.put (.text name) { entry with value := .number (x + 1) }
  | .error _ => o.reply = .error (notInteger name) ∧ o.state = s

section
variable {now : Binary64} {name : String} {s : State} {entry : Entry} {x : Binary64}

theorem run_increment_of_live (options : Options) (hstarted : s.initialized = true)
    (hlive : s.live? now (.text name) = some entry) (hread : entry.value.asNumber = .ok x) :
    store options now (.increment (.text name)) s =
      if x.isInteger then
        ⟨.ok (.number (x + 1)), s.put (.text name) { entry with value := .number (x + 1) }, []⟩
      else ⟨.error (notInteger name), s, []⟩ := by
  refine (Action.run_bind_quiet (run_require hstarted) _).trans
    ((Action.run_bind_quiet (run_look_of_live hlive) _).trans ?_)
  dsimp only
  rw [hread]
  show (if x.isInteger then _ else _ : StoreAction State Value) s = _
  split
  · rfl
  · rfl

variable {o : Outcome LogLine Fault State Value}
variable (hrun : o = if x.isInteger then
    ⟨.ok (.number (x + 1)), s.put (.text name) { entry with value := .number (x + 1) }, []⟩
  else ⟨.error (notInteger name), s, []⟩)

include hrun

theorem follows_ok_iff : Follows (.ok x) name entry s o ↔ x.isInteger = true := by
  subst hrun
  split
  · rename_i hinteger
    exact iff_of_true ⟨rfl, rfl⟩ hinteger
  · rename_i hinteger
    exact iff_of_false (fun h => nomatch h.1) hinteger

theorem follows_error_iff {fault : Fault} :
    Follows (.error fault) name entry s o ↔ ¬x.isInteger = true := by
  subst hrun
  split
  · rename_i hinteger
    exact iff_of_false (fun h => nomatch h.1) (not_not_intro hinteger)
  · rename_i hinteger
    exact iff_of_true ⟨rfl, rfl⟩ hinteger

theorem unchanged_of_error (h : o.reply = .error fault) : fault = notInteger name ∧ o.state = s := by
  subst hrun
  split at h
  · cases h
  · rename_i hinteger
    rw [if_neg hinteger]
    cases h
    exact ⟨rfl, rfl⟩

end

-- ---------------------------------------------------------------------------
-- Numbers and texts
-- ---------------------------------------------------------------------------

/-- What both readers take for an integer or both refuse: every number, and the texts that are no
integer that is too large for a double and that denote no whole number in another way. -/
def ReadAlike (value : Value) : Prop :=
  (∀ n ∈ Codec.written? value, n.natAbs < wholeLimit) ∧
    ∀ text, value = .text text → ¬LooselyWhole (Text.trim text.toList)

theorem readAlike_text {text : String} : ReadAlike (.text text) ↔
    (∀ n ∈ Numeral.signedDigits? (Text.trim text.toList), n.natAbs < wholeLimit) ∧
      ¬LooselyWhole (Text.trim text.toList) := by
  have hwritten : Codec.written? (.text text) = _ :=
    Codec.written?_of_asText nofun (Value.asText_text text)
  rw [ReadAlike, hwritten]
  simp

theorem readAlike_of_written {text : String} {n : Int}
    (h : Numeral.signedDigits? (Text.trim text.toList) = some n) :
    ReadAlike (.text text) ↔ n.natAbs < wholeLimit := by
  rw [readAlike_text, Numeral.looselyWhole_iff, h]
  simp

theorem integer_cases (name : String) {value : Value} {x : Binary64} (hread : value.asNumber = .ok x)
    (hvalue : (∃ y, value = .number y) ∨ ∃ text, value = .text text) :
    Codec.integer (.text name) value = .ok x ∧ (x.isInteger = true ↔ ReadAlike value) ∨
      ∃ fault, Codec.integer (.text name) value = .error fault ∧
        (¬x.isInteger = true ↔ ReadAlike value) := by
  rcases hvalue with ⟨y, rfl⟩ | ⟨text, rfl⟩
  · cases hread
    have halike : ReadAlike (.number x) := ⟨nofun, nofun⟩
    cases hinteger : x.isInteger with
    | true => exact .inl ⟨by rw [Codec.integer, hinteger]; rfl, iff_of_true rfl halike⟩
    | false =>
      exact .inr ⟨.decode name x.text "integer", by rw [Codec.integer, hinteger]; rfl,
        iff_of_true nofun halike⟩
  · obtain rfl : Numeral.read text = x := by cases hread; rfl
    cases hwritten : Numeral.signedDigits? (Text.trim text.toList) with
    | some n =>
      refine .inl ⟨Codec.integer_of_written hwritten, ?_⟩
      rw [Codec.isInteger_read hwritten, readAlike_of_written hwritten]
    | none =>
      refine .inr ⟨.decode name text "integer", ?_, ?_⟩
      · rw [Codec.integer_of_unwritten _ hwritten]
        rfl
      · rw [readAlike_text, Numeral.looselyWhole_iff, hwritten]
        simp [Numeral.read]

/-- An increment goes by the reading that later readers have of a value exactly if both readings are
alike; whatever it refuses, it leaves alone. -/
theorem increment_follows_iff (options : Options) {now : Binary64} {name : String} {s : State}
    {entry : Entry} (hstarted : s.initialized = true)
    (hlive : s.live? now (.text name) = some entry)
    (hvalue : (∃ y, entry.value = .number y) ∨ ∃ text, entry.value = .text text) :
    let o := store options now (.increment (.text name)) s
    (Follows (Codec.integer (.text name) entry.value) name entry s o ↔ ReadAlike entry.value) ∧
      ∀ fault, o.reply = .error fault → fault = notInteger name ∧ o.state = s := by
  intro o
  obtain ⟨x, hread⟩ : ∃ x, entry.value.asNumber = .ok x := by
    rcases hvalue with ⟨y, hy⟩ | ⟨text, htext⟩
    · exact ⟨y, by rw [hy, Value.asNumber_number]⟩
    · exact ⟨Numeral.read text, by rw [htext]; rfl⟩
  have hrun := run_increment_of_live options hstarted hlive hread
  refine ⟨?_, fun fault => unchanged_of_error hrun⟩
  rcases integer_cases name hread hvalue with ⟨hinteger, halike⟩ | ⟨fault, hinteger, halike⟩
  · rw [hinteger, follows_ok_iff hrun, halike]
  · rw [hinteger, follows_error_iff hrun, halike]

def holding (entry : Entry) : State := ({ initialized := true } : State).put (.text "k") entry

theorem live?_holding {entry : Entry} {now : Binary64} (h : entry.isExpired now = false) :
    (holding entry).live? now (.text "k") = some entry := by
  rw [holding, live?_put, if_pos rfl, Option.filter_some, h]
  rfl

/-- Digits between blanks are counted on from, and the expiry stays. -/
theorem increment_follows_blanks :
    let entry : Entry := ⟨.text "k", .text " 41 ", some 1000⟩
    let o := store {} 999 (.increment (.text "k")) (holding entry)
    o.reply = .ok (.number 42) ∧
      o.state = (holding entry).put (.text "k") { entry with value := .number 42 } := by
  intro entry o
  have hwritten : Numeral.signedDigits? (Text.trim " 41 ".toList) = some 41 := by decide +kernel
  have hread : Codec.integer (.text "k") entry.value = .ok 41 := by
    have hnumber : Numeral.read " 41 " = 41 := by decide +kernel
    rw [Codec.integer_of_written hwritten, hnumber]
  have halike : ReadAlike entry.value := (readAlike_of_written hwritten).mpr (by decide +kernel)
  have hlive : (holding entry).live? 999 (.text "k") = some entry :=
    live?_holding (by decide +kernel)
  have hfollows := (increment_follows_iff {} rfl hlive (.inr ⟨" 41 ", rfl⟩)).1.mpr halike
  have hnext : (41 : Binary64) + 1 = 42 := by decide +kernel
  rw [hread, Follows, hnext] at hfollows
  exact hfollows

/-- A blank value is counted on from as zero, though it reads as no integer. -/
theorem increment_blank :
    let entry : Entry := ⟨.text "k", .text "", none⟩
    (store {} 0 (.increment (.text "k")) (holding entry)).reply = .ok (.number 1) ∧
      Codec.integer (.text "k") (.text "") = .error (.decode "k" "" "integer") := by
  intro entry
  have hlive : (holding entry).live? 0 (.text "k") = some entry := live?_holding rfl
  have hread : entry.value.asNumber = .ok .zero := rfl
  refine ⟨?_, rfl⟩
  rw [run_increment_of_live {} rfl hlive hread, if_pos (by decide +kernel)]
  show Except.ok (Value.number (Binary64.zero + 1)) = _
  have hone : Binary64.zero + 1 = 1 := by decide +kernel
  rw [hone]

end SlidingTally.MemoryStore
