import SlidingTally.Proofs.Service.Accounting

/-!
# Reads of numbers

The reader of numbers gives a finite number or refuses the value, unless the value is itself a number
that is not finite, which it takes as it is. So a read of a number over any store replies with a
finite number, and is counted as an error where there was none, exactly if no such number was found.
Main statement: `readsFinite_iff`.
-/

namespace SlidingTally

open SlidingTally.Action (Triple)

def Value.isNonfinite : Value → Bool
  | .number x => !x.isFinite
  | _ => false

theorem Value.isNonfinite_of_ne {value : Value} (h : ∀ x, value ≠ .number x) :
    value.isNonfinite = false := by
  cases value with
  | number x => exact absurd rfl (h x)
  | _ => rfl

-- ---------------------------------------------------------------------------
-- The reader of numbers
-- ---------------------------------------------------------------------------

namespace Codec

/-- The number that a value is or that its text denotes; a blank text denotes none. -/
def numeral? (value : Value) : Option Binary64 :=
  match value with
  | .number x => some x
  | value => value.toText?.bind fun text =>
    if (Text.trim text.toList).isEmpty then none else some (Numeral.read text)

def finite? (value : Value) : Option Binary64 := (numeral? value).filter Binary64.isFinite

/-- A finite number, or a refusal of a value under its key. -/
def FiniteOrRefused (name : String) (result : Except Fault Binary64) : Prop :=
  (∃ x, result = .ok x ∧ x.isFinite = true) ∨ ∃ raw, result = .error (.decode name raw "float")

section
variable {key value : Value} {text : String}

theorem float_eq_finite? (hnumber : ∀ x, value ≠ .number x) (htext : value.asText = .ok text) :
    float key value = match finite? value with
      | some x => .ok x
      | none => refuse key (String.ofList (Text.trim text.toList)) "float" := by
  have hnumeral : numeral? value =
      if (Text.trim text.toList).isEmpty then none else some (Numeral.read text) := by
    unfold numeral?
    split
    · exact absurd rfl (hnumber _)
    · rw [Value.asText_eq_ok_iff.mp htext, Option.bind_some]
  rw [float_of_asText htext hnumber, finite?, hnumeral]
  cases (Text.trim text.toList).isEmpty with
  | true => rfl
  | false => cases hfinite : (Numeral.read text).isFinite <;> simp [Option.filter, hfinite]

theorem isFinite_of_finite? {x : Binary64} (h : finite? value = some x) : x.isFinite = true :=
  (Option.filter_eq_some_iff.mp h).2

theorem finite?_of_float {x : Binary64} (hnumber : ∀ x, value ≠ .number x)
    (h : float key value = .ok x) : finite? value = some x := by
  cases htext : value.asText with
  | error fault =>
    unfold float at h
    split at h
    · exact absurd rfl (hnumber _)
    · rw [htext] at h
      cases h
  | ok text =>
    rw [float_eq_finite? hnumber htext] at h
    split at h
    · cases h
      assumption
    · exact absurd h refuse_ne_ok

theorem finiteOrRefused_text (name : String) (hnumber : ∀ x, value ≠ .number x)
    (htext : value.asText = .ok text) : FiniteOrRefused name (float (.text name) value) := by
  rw [float_eq_finite? hnumber htext]
  cases hfinite : finite? value with
  | some x => exact .inl ⟨x, rfl, isFinite_of_finite? hfinite⟩
  | none => exact .inr ⟨_, refuse_text _ _ _⟩

theorem finiteOrRefused_iff (name : String) (h : value.isStored = true) :
    FiniteOrRefused name (float (.text name) value) ↔ value.isNonfinite = false := by
  cases value with
  | number x =>
    rw [Value.isNonfinite, Bool.not_eq_false']
    constructor
    · rintro (⟨y, hy, hfinite⟩ | ⟨raw, hraw⟩)
      · cases hy
        exact hfinite
      · cases hraw
    · exact fun hfinite => .inl ⟨x, rfl, hfinite⟩
  | text s => exact iff_of_true (finiteOrRefused_text name nofun (Value.asText_text s)) rfl
  | bytes octets => exact iff_of_true (finiteOrRefused_text name nofun rfl) rfl
  | _ => cases h

end

end Codec

-- ---------------------------------------------------------------------------
-- Reads
-- ---------------------------------------------------------------------------

namespace KeyValue

def decodeNumber (key : Key) (value : Value) : Except Fault Value :=
  (Codec.float key.value value).map .number

/-- What a read of a number should come to: it replies with a finite number, and is counted as an
error if what it found is none. -/
structure ReadsFinite (key : Key) (o : Outcome Event Halt σ Value) : Prop where
  replies : ∃ x, o.reply = .ok (.number x) ∧ x.isFinite = true
  counted : ∀ value, (.get key, .ok value) ∈ answers o.journal → value.isNull = false →
    Codec.finite? value = none → .keyValue .getFloat .error ∈ metrics o.journal

section
variable {value : Value} {d : Binary64}

theorem decoded_finite (key : Key) (hd : d.isFinite = true) (reply : Except Fault Value) :
    ∃ x, decoded (.number d) (decodeNumber key) reply = .number x ∧
      (x.isFinite = true ↔ ∀ value, reply = .ok value → value.isNonfinite = false) := by
  cases reply with
  | error fault => exact ⟨d, rfl, iff_of_true hd nofun⟩
  | ok value =>
    have hforall : (∀ found, (.ok value : Except Fault Value) = .ok found → found.isNonfinite = false) ↔
        value.isNonfinite = false := by simp
    rw [hforall]
    cases hnull : value.isNull with
    | true =>
      cases value with
      | null => exact ⟨d, rfl, iff_of_true hd rfl⟩
      | _ => cases hnull
    | false =>
      rw [decoded_value hnull, decodeNumber]
      by_cases hnumber : ∃ x, value = .number x
      · obtain ⟨x, rfl⟩ := hnumber
        exact ⟨x, rfl, by rw [Value.isNonfinite, Bool.not_eq_false']⟩
      · rw [not_exists] at hnumber
        have hvalue := Value.isNonfinite_of_ne hnumber
        cases hfloat : Codec.float key.value value with
        | ok x => exact ⟨x, rfl, iff_of_true
            (Codec.isFinite_of_finite? (Codec.finite?_of_float hnumber hfloat)) hvalue⟩
        | error fault => exact ⟨d, rfl, iff_of_true hd hvalue⟩

theorem isReadable_of_not_finite (key : Key) (hnull : value.isNull = false)
    (hfinite : Codec.finite? value = none) (hvalue : value.isNonfinite = false) :
    isReadable (decodeNumber key) (.ok value) = false := by
  have hnumber : ∀ x, value ≠ .number x := by
    rintro x rfl
    rw [Value.isNonfinite, Bool.not_eq_false'] at hvalue
    simp [Codec.finite?, Codec.numeral?, hvalue] at hfinite
  rw [isReadable, hnull, Bool.false_or, decodeNumber]
  cases hfloat : Codec.float key.value value with
  | ok x =>
    rw [Codec.finite?_of_float hnumber hfloat] at hfinite
    cases hfinite
  | error fault => rfl

end

theorem reading?_getFloat {fallback : Value} {d : Binary64}
    (hfallback : fallback.orDefault (.number .zero) = .number d) (key : Key) :
    (Request.getFloat key fallback : Request Binary64).reading? =
      some (key, .number d, decodeNumber key) := by
  rw [← hfallback]
  rfl

section
variable {σ : Type} {store : CounterStore σ} {fallback : Value} {d : Binary64}
variable (hinit : ∀ now s, ∃ b, (store now .isInitialized s).reply = .ok (.bool b))
variable (hfallback : fallback.orDefault (.number .zero) = .number d)

include hinit hfallback

theorem triple_getFloat (name : String) (now : Binary64) (s : σ) :
    let request : Request Binary64 := .getFloat (.text name) fallback
    Triple (Request.serveAt store (now, request)) s []
      (fun result _ j =>
        (Finished j ∧
          ReadFrom (.text name) (.number d) (decodeNumber (.text name)) result (answers j)) ∧
        metrics j = request.observations now (request.status (answers j)))
      fun halt _ j => Unexplained halt j := by
  intro request
  have hserve : Request.serveAt store (now, request) =
      read { store := store, now := now } .getFloat (.text name) (.number d)
        (decodeNumber (.text name)) := by
    rw [← hfallback]
    rfl
  have hkey : (Key.text name).value.asText = .ok name := Value.asText_text name
  have hworded (value : Value) : Worded (decodeNumber (.text name) value) :=
    worded_map _ (Codec.worded_float _ value)
  rw [hserve]
  have hread := triple_read (w := { store := store, now := now }) (hinit now) (fun _ => rfl)
    hkey .getFloat (.number d) hworded s
  have hmetered := triple_read_metered (w := { store := store, now := now }) (hinit now)
    (fun _ => rfl) .getFloat (.number d) (reading?_getFloat hfallback (.text name))
    (fun _ => rfl) s
  exact (hread.and hmetered).mono (fun _ _ _ h => h) fun _ _ _ h => h.1

theorem readsFinite_getFloat_iff (hd : d.isFinite = true) (name : String) (now : Binary64) (s : σ) :
    let o := Request.serveAt store (now, .getFloat (.text name) fallback) s
    ReadsFinite (.text name) o ↔ ¬EndsUnworded o.journal ∧
      ∀ value, (.get (.text name), .ok value) ∈ answers o.journal → value.isNonfinite = false := by
  intro o
  rcases (triple_getFloat hinit hfallback name now s).outcome with
    ⟨result, hresult, ⟨hfinished, hread⟩, hmetrics⟩ | ⟨halt, hhalt, hunexplained⟩
  · rw [and_iff_right hfinished.not_endsUnworded]
    rcases hread with ⟨hanswers, rfl⟩ | ⟨found, hanswers, rfl⟩
    · -- The store is not initialized, so nothing was looked for.
      have hnone (value : Value) : (.get (.text name), .ok value) ∉ answers o.journal := by
        rw [hanswers]
        simp
      exact iff_of_true ⟨⟨d, hresult, hd⟩, fun value hmem => absurd hmem (hnone value)⟩
        fun value hmem => absurd hmem (hnone value)
    · obtain ⟨x, hx, hfinite⟩ := decoded_finite (.text name) hd found
      have hmem (value : Value) : (.get (.text name), .ok value) ∈ answers o.journal ↔
          found = .ok value := by
        rw [hanswers]
        simp [eq_comm]
      simp only [hmem]
      rw [← hfinite]
      constructor
      · rintro ⟨⟨y, hy, hyfinite⟩, -⟩
        rw [hresult, hx] at hy
        cases hy
        exact hyfinite
      · intro hxfinite
        refine ⟨⟨x, by rw [hresult, hx], hxfinite⟩, fun value hvalue hnull hnone => ?_⟩
        obtain rfl := (hmem value).mp hvalue
        have hreadable := isReadable_of_not_finite (.text name) hnull hnone
          (hfinite.mp hxfinite value rfl)
        have hreading := reading?_getFloat hfallback (.text name)
        rw [hmetrics, hanswers, observations_reading hreading, status_reading hreading, hreadable]
        exact List.mem_singleton.mpr rfl
  · refine iff_of_false ?_ fun h => h.1 hunexplained.2
    rintro ⟨⟨x, hx, -⟩, -⟩
    rw [hhalt] at hx
    cases hx

end

/-- The reader of numbers gives a finite number or a refusal for every value that stores keep but a
number that is not finite. With a finite fallback, a read of a number over any store replies with a
finite number, and is counted as an error if what it found is none, exactly if it found no number
that is not finite; only a fault without a wording makes it reject. -/
theorem readsFinite_iff {σ : Type} {store : CounterStore σ}
    (hinit : ∀ now s, ∃ b, (store now .isInitialized s).reply = .ok (.bool b)) (name : String) :
    (∀ value, value.isStored = true →
      (Codec.FiniteOrRefused name (Codec.float (.text name) value) ↔ value.isNonfinite = false)) ∧
    ∀ (fallback : Value) (d : Binary64), fallback.orDefault (.number .zero) = .number d →
      d.isFinite = true → ∀ now s,
        let o := Request.serveAt store (now, .getFloat (.text name) fallback) s
        ReadsFinite (.text name) o ↔ ¬EndsUnworded o.journal ∧
          ∀ value, (.get (.text name), .ok value) ∈ answers o.journal → value.isNonfinite = false :=
  ⟨fun _ hstored => Codec.finiteOrRefused_iff name hstored, fun _ _ hfallback hd now s =>
    readsFinite_getFloat_iff hinit hfallback hd name now s⟩

def unboundedStore : CounterStore Unit := fun _ call =>
  match call with
  | .isInitialized => pure (.bool true)
  | .get key => pure (if key.value.text? = some "nan" then .number .nan else .text "1e999")
  | _ => pure .null

theorem readsFinite_iff_text :
    Codec.FiniteOrRefused "a" (Codec.float (.text "a") (.text "1e999")) ∧
      ReadsFinite (.text "a")
        (Request.serveAt unboundedStore (0, .getFloat (.text "a") (.number 1)) ()) := by
  have hinit : ∀ now s, ∃ b, (unboundedStore now .isInitialized s).reply = .ok (.bool b) :=
    fun _ _ => ⟨true, rfl⟩
  have hreply : (Request.serveAt unboundedStore (0, .getFloat (.text "a") (.number 1)) ()).reply =
      .ok (.number 1) := by rfl
  have hanswers :
      answers (Request.serveAt unboundedStore (0, .getFloat (.text "a") (.number 1)) ()).journal =
        [(.isInitialized, .ok (.bool true)), (.get (.text "a"), .ok (.text "1e999"))] := by rfl
  have hsensible : (Request.getFloat (.text "a") (.number 1)).Sensible 0 :=
    congrArg Option.isSome (Value.toText?_text "a")
  have hconforms :=
    @conforms_serveAt _ _ hinit (0, .getFloat (.text "a") (.number 1)) hsensible ()
  obtain ⟨hfloat, hread⟩ := readsFinite_iff hinit "a"
  refine ⟨(hfloat _ rfl).mpr rfl, (hread _ 1 rfl (by decide +kernel) 0 ()).mpr ⟨?_, ?_⟩⟩
  · rw [← hconforms.rejects, hreply]
    nofun
  · intro value hmem
    rw [hanswers] at hmem
    obtain rfl : value = .text "1e999" := by simpa using hmem
    rfl

/-- A number that is not finite is handed out as it is. -/
theorem not_readsFinite_nan :
    Codec.float (.text "nan") (.number .nan) = .ok .nan ∧
      ¬Codec.FiniteOrRefused "nan" (Codec.float (.text "nan") (.number .nan)) ∧
      ¬ReadsFinite (.text "nan")
        (Request.serveAt unboundedStore (0, .getFloat (.text "nan") (.number 1)) ()) := by
  have hread : (Request.serveAt unboundedStore (0, .getFloat (.text "nan") (.number 1)) ()).reply =
      .ok (.number .nan) := by rfl
  refine ⟨rfl, ?_, ?_⟩
  · rw [Codec.finiteOrRefused_iff "nan" rfl]
    nofun
  · rintro ⟨⟨x, hx, hfinite⟩, -⟩
    rw [hread] at hx
    cases hx
    cases hfinite

end KeyValue

end SlidingTally
