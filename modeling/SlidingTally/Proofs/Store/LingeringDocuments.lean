import SlidingTally.Proofs.Store.SlotActs

/-!
# Documents that linger

A document past its expiry stays until the database removes it. Reads leave it out, while an
increment, an `addIfAbsent` and a touch take it for one that is there: `meets` says when that
happens. The store over any such database is compared with the in-memory store that creates
no key on increment. Main statement: `sameReply_inMemory_iff`.
-/

namespace SlidingTally.LingeringDocuments

open SlidingTally.Action (Rising)
open Binary64 (is_ofNat)
open DocumentDatabase (Acts Document Documents Has Leaves lingering)
open MongoStore (Client Command Settings)
open SlotActs

-- ---------------------------------------------------------------------------
-- Meeting a document past its expiry
-- ---------------------------------------------------------------------------

/-- Equal, or tables with the same entries in some order. -/
inductive SameReply : Except Fault Value → Except Fault Value → Prop where
  | same (reply : Except Fault Value) : SameReply reply reply
  | arranged (h : entries.Perm entries') : SameReply (.ok (.table entries)) (.ok (.table entries'))

def isBlind : Act → Bool
  | .increment | .addIfAbsent _ _ | .touch _ => true
  | .set _ _ | .get => false

section
variable {κ : Type} (client : Client κ) (left : Binary64 → Command → κ → Documents)
  (settings : Settings)

/-- Whether an operation takes a document for one that is there which is past its expiry and
not removed. -/
def meets (step : Step) (s : MongoStore.State κ) : Bool :=
  match step.2 with
  | .on key act =>
    isBlind act && (left step.1 (act.command settings step.1 key) s.client key).any
      (Document.isExpired · step.1)
  | .getMulti _ => false

def metBy : MongoStore.State κ → List Step → String → Bool
  | _, [], _ => false
  | s, step :: rest, key =>
    (step.2.keys.contains key && meets left settings step s) ||
      metBy (perform client settings step s).state rest key

end

-- ---------------------------------------------------------------------------
-- Steps
-- ---------------------------------------------------------------------------

/-- The store over documents has the first slots, the map the others, and of the keys of `K` they
show the same. -/
structure Related (documents : κ → Documents) (K : String → Prop) (now : Binary64)
    (s : MongoStore.State κ) (m : ExpiringMap.State) (slots ideal : Slots) : Prop where
  has : Has documents s slots.documents
  holds : Holds m ideal
  whole : slots.Whole
  wholeIdeal : ideal.Whole
  visible : ∀ key, K key → slots.visible now key = ideal.visible now key

theorem effect_of_unmet {rest : Slots} {now : Binary64} {key : String} {act : Act}
    (h : (isBlind act && (rest key).any (!Slot.isPresent now ·)) = false) :
    act.effect now (act.sees now (rest key)) = act.effect now (rest.visible now key) := by
  cases act with
  | get => rfl
  | set value ttl => cases rest key <;> rfl
  | _ =>
    rw [Slots.visible]
    cases hslot : rest key with
    | none => rfl
    | some slot =>
      rw [hslot] at h
      have hpresent : slot.isPresent now = true := by simpa [isBlind] using h
      rw [Option.filter_some, if_pos hpresent]
      rfl

theorem not_same_of_ne (h : value ≠ value') (htable : ∀ entries, value ≠ .table entries) :
    ¬SameReply (.ok value) (.ok value') := by
  intro hsame
  cases hsame with
  | same => exact h rfl
  | arranged => exact htable _ rfl

theorem not_same_of_met {rest : Slots} {now : Binary64} {key : String} {act : Act}
    (h : (isBlind act && (rest key).any (!Slot.isPresent now ·)) = true) :
    ¬SameReply (.ok (act.effect now (act.sees now (rest key))).1)
      (.ok (act.effect now (rest.visible now key)).1) := by
  rw [Slots.visible]
  cases hslot : rest key with
  | none => simp [hslot] at h
  | some slot =>
    rw [hslot, Option.any_some, Bool.and_eq_true, Bool.not_eq_true'] at h
    rw [Option.filter_some, if_neg (by simp [h.2])]
    cases act with
    | increment => exact not_same_of_ne (fun heq => by cases heq) fun _ heq => by cases heq
    | addIfAbsent value ttl =>
      exact not_same_of_ne (fun heq => by cases heq) fun _ heq => by cases heq
    | touch ttl =>
      refine not_same_of_ne (fun heq => ?_) fun _ heq => by cases heq
      exact absurd (Value.text.inj heq) (by decide)
    | set value ttl => cases h.1
    | get => cases h.1

section
variable {κ : Type} {client : Client κ} {documents : κ → Documents}
  {left : Binary64 → Command → κ → Documents} {settings : Settings} {K : String → Prop}
  {now next : Binary64} {s : MongoStore.State κ} {m : ExpiringMap.State} {slots ideal : Slots}
  {operation : Operation}

theorem Related.later (h : Related documents K now s m slots ideal) (hle : now.le next = true) :
    Related documents K next s m slots ideal := by
  refine ⟨h.has, h.holds, h.whole, h.wholeIdeal, fun key hkey => ?_⟩
  rw [Slots.visible_later hle, Slots.visible_later hle, h.visible key hkey]

theorem meets_on {rest : Slots} (hrest : rest.Whole) (hnow : IsDate now) {key : String} {act : Act}
    (hleft : left now (act.command settings now key) s.client = rest.documents) :
    meets left settings (now, .on key act) s =
      (isBlind act && (rest key).any (!Slot.isPresent now ·)) := by
  simp only [meets, hleft]
  cases hslot : rest key with
  | none => rw [documents_none hslot]; rfl
  | some slot =>
    rw [documents_some hslot, Option.any_some, Option.any_some,
      Slot.isExpired_document (hrest key slot hslot) hnow]

theorem Related.step (h : Leaves client documents left)
    (hrelated : Related documents K now s m slots ideal) (hstep : WholeStep (now, operation))
    (hmet : ∀ key ∈ operation.keys, K key → meets left settings (now, operation) s = false) :
    ∃ slots' ideal', Related documents K now (perform client settings (now, operation) s).state
      (performIdeal (now, operation) m).state slots' ideal' := by
  obtain ⟨n, hn, hlimit, hact⟩ := hstep
  have hnow : IsDate now := ⟨n, hn, hlimit⟩
  cases operation with
  | on key act =>
    obtain ⟨rest, s', hrest, hvisible, hleft, hrun, hhas'⟩ :=
      evaluates_on h settings hrelated.has hrelated.whole hnow key act
    obtain ⟨m', hideal, hholds'⟩ := hrelated.holds.evaluates_on hrelated.wholeIdeal now key act
    rw [hrun.state, hideal.state]
    refine ⟨_, _, hhas', hholds', hrest.write ?_, hrelated.wholeIdeal.write ?_, ?_⟩
    · exact Act.effect_whole hn hact fun slot hslot => hrest key slot (Act.of_sees hslot)
    · exact Act.effect_whole hn hact fun slot hslot =>
        hrelated.wholeIdeal key slot (Option.filter_eq_some_iff.mp hslot).1
    · -- Another key is not written, and this one is written alike as nothing expired was met.
      intro other hother
      by_cases hkey : other = key
      · subst hkey
        have hunmet := hmet other List.mem_cons_self hother
        rw [meets_on hrest hnow hleft] at hunmet
        rw [effect_of_unmet hunmet, hvisible, hrelated.visible other hother]
        cases (act.effect now (ideal.visible now other)).2 with
        | none => exact (hvisible other).trans (hrelated.visible other hother)
        | some slot => rw [Slots.visible_write_self, Slots.visible_write_self]
      · rw [Slots.visible_write_of_ne _ hkey, Slots.visible_write_of_ne _ hkey, hvisible,
          hrelated.visible other hother]
  | getMulti keys =>
    obtain ⟨left', shown, s', hpurged, hshown, hrun, hhas'⟩ :=
      h.evaluates_getMulti settings hrelated.has now keys
    obtain ⟨rest, rfl, hrest, hvisible⟩ := Slots.exists_rest hrelated.whole hnow hpurged
    have hideal := hrelated.holds.evaluates_getMulti now keys
    have hstate : (perform client settings (now, .getMulti keys) s).state = s' := hrun.state
    rw [hstate, hideal.state]
    exact ⟨rest, ideal, hhas', hrelated.holds, hrest, hrelated.wholeIdeal, fun key hkey =>
      (hvisible key).trans (hrelated.visible key hkey)⟩

theorem Related.reply (h : Leaves client documents left)
    (hrelated : Related documents K now s m slots ideal) (hstep : WholeStep (now, operation))
    (hkeys : ∀ key ∈ operation.keys, K key) :
    SameReply (perform client settings (now, operation) s).reply
        (performIdeal (now, operation) m).reply ↔
      meets left settings (now, operation) s = false := by
  obtain ⟨n, hn, hlimit, hact⟩ := hstep
  have hnow : IsDate now := ⟨n, hn, hlimit⟩
  cases operation with
  | on key act =>
    obtain ⟨rest, s', hrest, hvisible, hleft, hrun, hhas'⟩ :=
      evaluates_on h settings hrelated.has hrelated.whole hnow key act
    obtain ⟨m', hideal, hholds'⟩ := hrelated.holds.evaluates_on hrelated.wholeIdeal now key act
    rw [hrun.reply, hideal.reply, meets_on hrest hnow hleft,
      ← hrelated.visible key (hkeys key List.mem_cons_self), ← hvisible]
    constructor
    · intro hsame
      by_contra hmet
      exact not_same_of_met (Bool.eq_true_of_not_eq_false hmet) hsame
    · intro hunmet
      rw [effect_of_unmet hunmet]
      exact .same _
  | getMulti keys =>
    obtain ⟨left', shown, s', hpurged, hshown, hrun, hhas'⟩ :=
      h.evaluates_getMulti settings hrelated.has now keys
    obtain ⟨rest, rfl, hrest, hvisible⟩ := Slots.exists_rest hrelated.whole hnow hpurged
    have hlook : foundBy (rest.look now) keys = foundBy (ideal.look now) keys :=
      foundBy_look_congr fun key hmem =>
        (hvisible key).trans (hrelated.visible key (hkeys key hmem))
    have hreply : (perform client settings (now, .getMulti keys) s).reply = _ := hrun.reply
    rw [hreply, (hrelated.holds.evaluates_getMulti now keys).reply]
    refine iff_of_true (.arranged ?_) rfl
    rw [found_documents hrest hnow] at hshown
    rw [← hlook]
    exact (hshown.map _).trans (entriesOf_foundBy (rest.look now) keys).symm

-- ---------------------------------------------------------------------------
-- Runs
-- ---------------------------------------------------------------------------

theorem related_stateAfter (h : Leaves client documents left) (last : Step) :
    ∀ (before : List Step) (start : Binary64) (s : MongoStore.State κ) (m : ExpiringMap.State)
      (slots ideal : Slots), Related documents K start s m slots ideal →
      Rising Prod.fst start (before ++ [last]) → (∀ step ∈ before, WholeStep step) →
      (∀ key, K key → metBy client left settings s before key = false) →
      ∃ slots' ideal', Related documents K last.1
        (Action.stateAfter (perform client settings) s before)
        (Action.stateAfter performIdeal m before) slots' ideal'
  | [], _, _, _, slots, ideal, hrelated, ⟨hle, _⟩, _, _ => ⟨slots, ideal, hrelated.later hle⟩
  | (now, operation) :: rest, _, _, _, _, _, hrelated, ⟨hle, hrest⟩, hwhole, hmet => by
    simp only [metBy, Bool.or_eq_false_iff, Bool.and_eq_false_imp, List.contains_iff_mem] at hmet
    obtain ⟨slots', ideal', hrelated'⟩ := (hrelated.later hle).step h (hwhole _ List.mem_cons_self)
      fun key hmem hkey => (hmet key hkey).1 hmem
    exact related_stateAfter h last rest now _ _ slots' ideal' hrelated' hrest
      (fun step hmem => hwhole step (List.mem_cons_of_mem _ hmem)) fun key hkey => (hmet key hkey).2

end

theorem alike_performIdeal (step : Step) :
    Action.Alike (MemoryStore.Mirrors step.1) (performInMemory step) (performIdeal step) :=
  MemoryStore.alike_store existingOnly step.2.call

/-- On keys that no earlier operation met past their expiry, an operation replies what the
in-memory store does exactly when it meets no such document itself. -/
theorem sameReply_inMemory_iff {κ : Type} {client : Client κ} {documents : κ → Documents}
    {left : Binary64 → Command → κ → Documents} (h : Leaves client documents left)
    (settings : Settings) {s : MongoStore.State κ} (hhas : Has documents s fun _ => none)
    {start : Binary64} (hstart : start.isFinite = true) {before : List Step} {step : Step}
    (hrising : Rising Prod.fst start (before ++ [step]))
    (hwhole : ∀ other ∈ before ++ [step], WholeStep other)
    (hmet : ∀ key ∈ step.2.keys, metBy client left settings s before key = false) :
    SameReply
        (perform client settings step (Action.stateAfter (perform client settings) s before)).reply
        (performInMemory step
          (Action.stateAfter performInMemory { initialized := true } before)).reply ↔
      meets left settings step (Action.stateAfter (perform client settings) s before) = false := by
  -- The in-memory store drops what it likes of the expired, so the map stands in for it.
  have hmemory : (performInMemory step
        (Action.stateAfter performInMemory { initialized := true } before)).reply =
      (performIdeal step (Action.stateAfter performIdeal { initialized := true } before)).reply :=
    (alike_performIdeal step _ _ (Action.Alike.stateAfter (R := MemoryStore.Mirrors)
      (fun _ _ _ _ hle h => h.mono hle) alike_performIdeal step before start _ _
      ⟨Binary64.boundedBelow_of_isFinite hstart, rfl, fun _ _ _ => rfl⟩ hrising)).1
  have hempty : Related documents (fun key => metBy client left settings s before key = false) start
      s { initialized := true } Slots.empty Slots.empty :=
    ⟨hhas, ⟨rfl, fun _ => rfl⟩, Slots.whole_empty, Slots.whole_empty, fun _ _ => rfl⟩
  obtain ⟨slots, ideal, hrelated⟩ := related_stateAfter h step before start s
    { initialized := true } _ _ hempty hrising
    (fun other hmem => hwhole other (List.mem_append_left _ hmem)) fun _ hkey => hkey
  rw [hmemory]
  exact hrelated.reply h (hwhole step (List.mem_append_right _ List.mem_cons_self)) hmet

/-- One document that lingers, and one without an expiry. -/
theorem sameReply_inMemory_getMulti :
    let s := (MongoStore.start lingering 0 { hasModel := true, client := fun _ => none }).state
    let before : List Step := [(0, .on "a" (.addIfAbsent 1 1)), (500, .on "b" (.set 7 0))]
    let step : Step := (1000, .getMulti ["a", "b", "a"])
    SameReply (perform lingering {} step (Action.stateAfter (perform lingering {}) s before)).reply
      (performInMemory step
        (Action.stateAfter performInMemory { initialized := true } before)).reply := by
  intro s before step
  have hhas : Has (fun documents => documents) s fun _ => none :=
    DocumentDatabase.start_state DocumentDatabase.acts_lingering 0 rfl fun _ => rfl
  have hrising : Rising Prod.fst 0 (before ++ [step]) :=
    ⟨by decide +kernel, by decide +kernel, by decide +kernel, trivial⟩
  have hwhole : ∀ other ∈ before ++ [step], WholeStep other := by
    intro other hmem
    simp only [before, step, List.cons_append, List.nil_append, List.mem_cons, List.not_mem_nil,
      or_false] at hmem
    obtain rfl | rfl | rfl := hmem
    · exact ⟨0, is_ofNat (by decide), by decide, by decide +kernel, 1000,
        ⟨by decide +kernel, by decide +kernel⟩, fun _ => by decide⟩
    · exact ⟨500, is_ofNat (by decide), by decide, by decide +kernel, 0,
        ⟨by decide +kernel, by decide +kernel⟩, fun _ => by decide⟩
    · exact ⟨1000, is_ofNat (by decide), by decide, trivial⟩
  have hmet : ∀ key ∈ step.2.keys, metBy lingering (fun _ _ documents => documents) {} s before key =
      false := by decide +kernel
  exact (sameReply_inMemory_iff DocumentDatabase.leaves_lingering {} hhas (by decide +kernel) hrising
    hwhole hmet).mpr rfl

theorem eq_null_of_any {reply : Except Fault Value}
    (h : reply.toOption.any Value.isNull = true) : reply = .ok .null := by
  cases reply with
  | error fault => cases h
  | ok value => cases value <;> first | rfl | cases h

/-- The increment of an expired key adds to its document, which still lingers. -/
theorem increment_lingering :
    let s := (MongoStore.start lingering 0 { hasModel := true, client := fun _ => none }).state
    let before : List Step := [(0, .on "a" (.addIfAbsent 1 1))]
    let step : Step := (1000, .on "a" .increment)
    Acts lingering (fun documents => documents) ∧
      (perform lingering {} step (Action.stateAfter (perform lingering {}) s before)).reply =
        .ok (.number 2) ∧
      (performInMemory step
        (Action.stateAfter performInMemory { initialized := true } before)).reply = .ok .null := by
  intro s before step
  have hsum : (1 : Binary64) + 1 = 2 := by decide +kernel
  refine ⟨DocumentDatabase.acts_lingering, ?_, eq_null_of_any (by decide +kernel)⟩
  rw [← hsum]
  rfl

end SlidingTally.LingeringDocuments
