import Mathlib.Data.List.Forall2
import Mathlib.Data.List.Induction
import SlidingTally.Action
import SlidingTally.Number.Binary64

/-!
# Runs of actions

A run takes actions one after another, each from the state that the one before it left, whether
that one replied or failed. `stateAfter_induct` derives what every run preserves from what one
step does, and `Alike.replies` that two runs show the same from the same of one step.
-/

namespace SlidingTally.Action

variable {ε ε' φ σ τ α β ι : Type}

-- ---------------------------------------------------------------------------
-- Runs
-- ---------------------------------------------------------------------------

def stateAfter (step : ι → Action ε φ σ α) (s : σ) (inputs : List ι) : σ :=
  inputs.foldl (fun s input => (step input s).state) s

def outcomes (step : ι → Action ε φ σ α) (s : σ) : List ι → List (Outcome ε φ σ α)
  | [] => []
  | input :: rest => step input s :: outcomes step (step input s).state rest

def replies (step : ι → Action ε φ σ α) (s : σ) (inputs : List ι) : List (Except φ α) :=
  (outcomes step s inputs).map Outcome.reply

theorem stateAfter_append {step : ι → Action ε φ σ α} :
    stateAfter step s (before ++ [input]) = (step input (stateAfter step s before)).state := by
  simp [stateAfter]

@[simp] theorem replies_cons {step : ι → Action ε φ σ α} :
    replies step s (input :: rest) =
      (step input s).reply :: replies step (step input s).state rest := rfl

def repliesTo (picked : ι → Bool) (step : ι → Action ε φ σ α) (s : σ) (inputs : List ι) :
    List (Except φ α) :=
  ((inputs.zip (replies step s inputs)).filter fun entry => picked entry.1).map Prod.snd

theorem length_replies (step : ι → Action ε φ σ α) (s : σ) (inputs : List ι) :
    (replies step s inputs).length = inputs.length := by
  induction inputs generalizing s with
  | nil => rfl
  | cons input rest ih => rw [replies_cons, List.length_cons, ih, List.length_cons]

theorem replies_append (step : ι → Action ε φ σ α) (s : σ) (before : List ι) (last : ι) :
    replies step s (before ++ [last]) =
      replies step s before ++ [(step last (stateAfter step s before)).reply] := by
  induction before generalizing s with
  | nil => rfl
  | cons input rest ih => rw [List.cons_append, replies_cons, replies_cons, ih]; rfl

/-- What holds at the start and is kept by every step holds after every run. -/
theorem stateAfter_induct {step : ι → Action ε φ σ α} {I : List ι → σ → Prop} (start : I [] s)
    (keep : ∀ before input s, I before s → I (before ++ [input]) (step input s).state)
    (inputs : List ι) : I inputs (stateAfter step s inputs) := by
  induction inputs using List.reverseRecOn with
  | nil => exact start
  | append_singleton before input ih =>
    rw [stateAfter_append]
    exact keep before input _ ih

/-- Two runs show the same if each of their steps does, given all the steps before it. -/
theorem exists_replies {step : ι → Action ε φ σ α} {step' : ι → Action ε' φ τ α} {shown : β → Except φ α}
    (inputs : List ι) (h : ∀ before last rest, inputs = before ++ last :: rest →
      ∃ b, (step last (stateAfter step s before)).reply = shown b ∧
        (step' last (stateAfter step' t before)).reply = shown b) :
    ∃ bs : List β, replies step s inputs = bs.map shown ∧ replies step' t inputs = bs.map shown := by
  induction inputs using List.reverseRecOn with
  | nil => exact ⟨[], rfl, rfl⟩
  | append_singleton before last ih =>
    obtain ⟨bs, hbs, hbs'⟩ := ih fun before' last' rest' heq =>
      h before' last' (rest' ++ [last]) (by rw [heq, List.append_assoc, List.cons_append])
    obtain ⟨b, hb, hb'⟩ := h before last [] rfl
    refine ⟨bs ++ [b], ?_, ?_⟩
    · rw [replies_append, hbs, hb, List.map_append, List.map_singleton]
    · rw [replies_append, hbs', hb', List.map_append, List.map_singleton]

theorem forall_outcomes {step : ι → Action ε φ σ α} {P : ι → Outcome ε φ σ α → Prop} :
    ∀ (inputs : List ι) (s : σ), (∀ input ∈ inputs, ∀ s, P input (step input s)) →
      List.Forall₂ P inputs (outcomes step s inputs)
  | [], _, _ => .nil
  | input :: rest, s, h =>
    .cons (h input List.mem_cons_self s)
      (forall_outcomes rest _ fun other hmem => h other (List.mem_cons_of_mem _ hmem))

theorem forall_outcomes_of_keeps {step : ι → Action ε φ σ α} {P : ι → Outcome ε φ σ α → Prop}
    {I : σ → Prop} (h : ∀ input s, I s → P input (step input s) ∧ I (step input s).state) :
    ∀ (inputs : List ι) (s : σ), I s →
      List.Forall₂ P inputs (outcomes step s inputs) ∧ I (stateAfter step s inputs)
  | [], _, hs => ⟨.nil, hs⟩
  | input :: rest, s, hs =>
    have hstep := h input s hs
    have hrest := forall_outcomes_of_keeps h rest _ hstep.2
    ⟨.cons hstep.1 hrest.1, hrest.2⟩

-- ---------------------------------------------------------------------------
-- Two actions alike
-- ---------------------------------------------------------------------------

/-- From related states two actions reply the same and leave related states. -/
def Alike (R : σ → τ → Prop) (x : Action ε φ σ α) (y : Action ε' φ τ α) : Prop :=
  ∀ s t, R s t → (x s).reply = (y t).reply ∧ R (x s).state (y t).state

section
variable {R : σ → τ → Prop}

theorem Alike.pure (a : α) :
    Alike R (Pure.pure a : Action ε φ σ α) (Pure.pure a : Action ε' φ τ α) :=
  fun _ _ h => ⟨rfl, h⟩

theorem Alike.fail (e : φ) :
    Alike R (Action.fail e : Action ε φ σ α) (Action.fail e : Action ε' φ τ α) :=
  fun _ _ h => ⟨rfl, h⟩

theorem Alike.record (entry : ε) (entry' : ε') :
    Alike R (Action.record entry : Action ε φ σ Unit) (Action.record entry' : Action ε' φ τ Unit) :=
  fun _ _ h => ⟨rfl, h⟩

theorem Alike.ofExcept (result : Except φ α) :
    Alike R (Action.ofExcept result : Action ε φ σ α) (Action.ofExcept result : Action ε' φ τ α) := by
  cases result with
  | ok a => exact Alike.pure a
  | error e => exact Alike.fail e

theorem Alike.view {f : σ → α} {g : τ → α} (h : ∀ s t, R s t → f s = g t) :
    Alike R (Action.view f : Action ε φ σ α) (Action.view g : Action ε' φ τ α) :=
  fun s t hst => ⟨congrArg Except.ok (h s t hst), hst⟩

theorem Alike.update {f : σ → σ} {g : τ → τ} (h : ∀ s t, R s t → R (f s) (g t)) :
    Alike R (Action.update f : Action ε φ σ Unit) (Action.update g : Action ε' φ τ Unit) :=
  fun s t hst => ⟨rfl, h s t hst⟩

theorem Alike.bind {x : Action ε φ σ α} {y : Action ε' φ τ α} {f : α → Action ε φ σ β}
    {g : α → Action ε' φ τ β} (hxy : Alike R x y) (hfg : ∀ a, Alike R (f a) (g a)) :
    Alike R (x >>= f) (y >>= g) := by
  intro s t hst
  obtain ⟨hreply, hstate⟩ := hxy s t hst
  rw [run_bind, run_bind, ← hreply]
  cases (x s).reply with
  | ok a => exact hfg a _ _ hstate
  | error e => exact ⟨rfl, hstate⟩

theorem Alike.map {x : Action ε φ σ α} {y : Action ε' φ τ α} (h : Alike R x y) (f : α → β) :
    Alike R (f <$> x) (f <$> y) := by
  rw [map_eq_pure_bind, map_eq_pure_bind]
  exact h.bind fun a => Alike.pure (f a)

end

theorem Alike.of_preserves {I : σ → Prop} {x : Action ε φ σ α} (h : ∀ s, I s → I (x s).state) :
    Alike (fun s t => s = t ∧ I s) x x := by
  rintro s _ ⟨rfl, hs⟩
  exact ⟨rfl, rfl, h s hs⟩

theorem Alike.preserves {I : σ → Prop} {x : Action ε φ σ α}
    (h : Alike (fun s t => s = t ∧ I s) x x) (hs : I s) : I (x s).state :=
  (h s s ⟨rfl, hs⟩).2.2

-- ---------------------------------------------------------------------------
-- Runs by the clock
-- ---------------------------------------------------------------------------

/-- Inputs whose readings do not fall, from a first one on. -/
def Rising (clock : ι → Binary64) : Binary64 → List ι → Prop
  | _, [] => True
  | now, input :: rest => now.le (clock input) = true ∧ Rising clock (clock input) rest

theorem Rising.forall {clock : ι → Binary64} {P : Binary64 → Prop}
    (later : ∀ now next, now.le next = true → P now → P next) :
    ∀ (inputs : List ι) (now : Binary64), P now → Rising clock now inputs →
      ∀ input ∈ inputs, P (clock input)
  | first :: rest, now, hnow, ⟨hle, hrest⟩, input, hmem => by
    have hfirst := later now _ hle hnow
    rcases List.mem_cons.mp hmem with rfl | hmem
    · exact hfirst
    · exact Rising.forall later rest _ hfirst hrest input hmem

section
variable {R : Binary64 → σ → τ → Prop} {clock : ι → Binary64} {x : ι → Action ε φ σ α}
  {y : ι → Action ε' φ τ α}

/-- Two runs by the same clock show the same when their steps do, in a relation that time alone
does not break. -/
theorem Alike.replies (later : ∀ now next s t, now.le next = true → R now s t → R next s t)
    (step : ∀ input, Alike (R (clock input)) (x input) (y input)) :
    ∀ (inputs : List ι) (now : Binary64) (s : σ) (t : τ), R now s t →
      Rising clock now inputs → replies x s inputs = replies y t inputs
  | [], _, _, _, _, _ => rfl
  | input :: rest, now, s, t, hst, ⟨hle, hrest⟩ => by
    obtain ⟨hreply, hstate⟩ := step input s t (later now _ s t hle hst)
    rw [replies_cons, replies_cons, hreply,
      Alike.replies later step rest _ _ _ hstate hrest]

/-- The replies to some inputs are those of a run without the others, when these leave the left
side related to what the right side is at. -/
theorem Alike.repliesTo (later : ∀ now next s t, now.le next = true → R now s t → R next s t)
    {picked : ι → Bool} (step : ∀ input, picked input = true → Alike (R (clock input)) (x input) (y input))
    (alone : ∀ input s t, picked input = false → R (clock input) s t →
      R (clock input) (x input s).state t) :
    ∀ (inputs : List ι) (now : Binary64) (s : σ) (t : τ), R now s t → Rising clock now inputs →
      Action.repliesTo picked x s inputs = Action.replies y t (inputs.filter picked)
  | [], _, _, _, _, _ => rfl
  | input :: rest, now, s, t, hst, ⟨hle, hrest⟩ => by
    have hnow := later now _ s t hle hst
    have hcons : Action.repliesTo picked x s (input :: rest) =
        (if picked input then [(x input s).reply] else []) ++
          Action.repliesTo picked x (x input s).state rest := by
      unfold Action.repliesTo
      rw [replies_cons, List.zip_cons_cons, List.filter_cons]
      split <;> rfl
    rw [hcons, List.filter_cons]
    cases hpicked : picked input with
    | true =>
      obtain ⟨hreply, hstate⟩ := step input hpicked s t hnow
      rw [if_pos rfl, if_pos rfl, replies_cons, hreply,
        Alike.repliesTo later step alone rest _ _ _ hstate hrest]
      rfl
    | false =>
      exact Alike.repliesTo later step alone rest _ _ _ (alone input s t hpicked hnow) hrest

theorem Alike.stateAfter (later : ∀ now next s t, now.le next = true → R now s t → R next s t)
    (step : ∀ input, Alike (R (clock input)) (x input) (y input)) (last : ι) :
    ∀ (before : List ι) (now : Binary64) (s : σ) (t : τ), R now s t →
      Rising clock now (before ++ [last]) →
      R (clock last) (stateAfter x s before) (stateAfter y t before)
  | [], now, s, t, hst, ⟨hle, _⟩ => later now _ s t hle hst
  | input :: rest, now, s, t, hst, ⟨hle, hrest⟩ =>
    Alike.stateAfter later step last rest _ _ _
      (step input s t (later now _ s t hle hst)).2 hrest

end

end SlidingTally.Action
