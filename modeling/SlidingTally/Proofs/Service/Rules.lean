import SlidingTally.Proofs.Action.Triple
import SlidingTally.Store

/-!
# Rules for services

The rules of triples and of evaluation for what services do: calls to the store, rescue, log
lines and observations.
-/

namespace SlidingTally

open SlidingTally.Action (Triple Evaluates)

variable {σ α : Type} {w : Wiring σ} {s s' : σ} {j : List Event}

-- ---------------------------------------------------------------------------
-- Triples
-- ---------------------------------------------------------------------------

def callEntries (w : Wiring σ) (call : StoreCall) (s : σ) : List Event :=
  (w.store w.now call s).journal.map Event.log ++ [Event.call call (w.store w.now call s).reply]

theorem triple_ask (h : Q (w.store w.now call s).reply (w.store w.now call s).state
      (j ++ callEntries w call s)) : Triple (ask w call) s j Q E :=
  Triple.of_run (run_ask w call s) h

theorem triple_orReject {result : Except Fault α} (hok : ∀ a, result = .ok a → Q a s j)
    (herror : ∀ fault, result = .error fault → E (.fault fault) s j) :
    Triple (orReject result) s j Q E := by
  cases result with
  | ok a => exact Triple.pure (hok a rfl)
  | error fault => exact Triple.fail (herror fault rfl)

theorem triple_demand
    (hok : ∀ value, (w.store w.now call s).reply = .ok value →
      Q value (w.store w.now call s).state (j ++ callEntries w call s))
    (herror : ∀ fault, (w.store w.now call s).reply = .error fault →
      E (.fault fault) (w.store w.now call s).state (j ++ callEntries w call s)) :
    Triple (demand w call) s j Q E := by
  refine Triple.bind (Q := fun reply s' j' => reply = (w.store w.now call s).reply ∧
    s' = (w.store w.now call s).state ∧ j' = j ++ callEntries w call s)
    (triple_ask ⟨rfl, rfl, rfl⟩) ?_
  rintro reply s' j' ⟨rfl, rfl, rfl⟩
  exact triple_orReject hok herror

theorem triple_rescue {x : Service σ α} {otherwise : Fault → Service σ α}
    (hx : Triple x s j Q E)
    (hfault : ∀ fault s' j', E (.fault fault) s' j' → Triple (otherwise fault) s' j' Q E')
    (hendless : ∀ s' j', E .endless s' j' → E' .endless s' j') :
    Triple (rescue x otherwise) s j Q E' := by
  unfold Triple at hx
  split at hx
  · rename_i a ha
    simpa only [Triple, rescue, ha] using hx
  · rename_i halt hhalt
    cases halt with
    | fault fault =>
      have h := hfault fault _ _ hx
      unfold Triple at h ⊢
      simp only [rescue, hhalt, ← List.append_assoc]
      exact h
    | endless => simpa only [Triple, rescue, hhalt] using hendless _ _ hx

theorem triple_say (h : Q () s (j ++ [.log ⟨level, component, text⟩])) :
    Triple (say level component text) s j Q E :=
  Triple.record h

theorem triple_explain
    (hok : ∀ text, fault.message? = some text →
      Q () s (j ++ [.log ⟨level, component, lead ++ text⟩]))
    (herror : fault.message? = none → E (.fault .unwritable) s j) :
    Triple (explain level component lead fault) s j Q E := by
  cases hmessage : fault.message? with
  | some text => exact Triple.of_run (run_explain hmessage level component lead s) (hok text hmessage)
  | none =>
    have hrun : explain level component lead fault s = ⟨.error (.fault .unwritable), s, []⟩ := by
      simp only [explain, Fault.describe, hmessage]
      rfl
    exact Triple.of_run_error hrun (by simpa using herror hmessage)

theorem triple_observe (hrefusal : w.refusal metric = none)
    (h : Q () s (j ++ [.metric metric])) : Triple (observe w metric) s j Q E :=
  Triple.of_run (run_observe hrefusal s) h

-- ---------------------------------------------------------------------------
-- Evaluation
-- ---------------------------------------------------------------------------

theorem evaluates_ask (h : Evaluates (w.store w.now call) s value s') :
    Evaluates (ask w call) s (.ok value) s' := by
  obtain ⟨lines, hrun⟩ := h
  refine ⟨lines.map Event.log ++ [.call call (.ok value)], ?_⟩
  rw [run_ask, hrun]

theorem evaluates_orReject {result : Except Fault α} (h : result = .ok a) :
    Evaluates (orReject result : Service σ α) s a s := by
  rw [h]
  exact Evaluates.pure a s

theorem evaluates_demand (h : Evaluates (w.store w.now call) s value s') :
    Evaluates (demand w call) s value s' :=
  (evaluates_ask h).bind (evaluates_orReject rfl)

theorem evaluates_rescue {x : Service σ α} (h : Evaluates x s a s')
    (otherwise : Fault → Service σ α) : Evaluates (rescue x otherwise) s a s' := by
  obtain ⟨entries, hrun⟩ := h
  exact ⟨entries, run_rescue_ok hrun otherwise⟩

theorem evaluates_rescue_fault {x : Service σ α} {otherwise : Fault → Service σ α}
    (h : x s = ⟨.error (.fault fault), s', entries⟩) (hfault : Evaluates (otherwise fault) s' a s'') :
    Evaluates (rescue x otherwise) s a s'' := by
  obtain ⟨more, hrun⟩ := hfault
  refine ⟨entries ++ more, ?_⟩
  rw [run_rescue_fault h, hrun]

theorem evaluates_explain {fault : Fault} (h : fault.message? ≠ none) (level : LogLevel)
    (component : Component) (lead : String) (s : σ) :
    Evaluates (explain level component lead fault) s () s := by
  obtain ⟨text, htext⟩ := Option.ne_none_iff_exists'.mp h
  exact ⟨_, run_explain htext level component lead s⟩

theorem evaluates_observe (hrefusal : w.refusal metric = none) (s : σ) :
    Evaluates (observe w metric) s () s :=
  ⟨[.metric metric], run_observe hrefusal s⟩

end SlidingTally
