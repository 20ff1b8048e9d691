import SlidingTally.Proofs.Service.FailOpen

/-!
# Stores under faults

`faulty store` is a store of which calls fail without effect wherever a plan has a fault for them.
A plan is read call by call and ends with the requests that it was made for. What the calls keep
that do reach the store is kept under every plan.
-/

namespace SlidingTally

open SlidingTally.Action (Triple)

variable {σ : Type}

/-- What takes the place of the calls to come, none for those that reach the store. -/
abbrev FaultPlan := List (Option Fault)

def faulty (store : CounterStore σ) : CounterStore (σ × FaultPlan) := fun now call (s, plan) =>
  match plan.head?.join with
  | some fault => ⟨.error fault, (s, plan.tail), []⟩
  | none =>
    let outcome := store now call s
    ⟨outcome.reply, (outcome.state, plan.tail), outcome.journal⟩

structure FaultyRequest where
  now : Binary64
  request : Request Binary64
  plan : FaultPlan

def Request.serveFaulty (store : CounterStore σ) (call : FaultyRequest) : Service σ Value := fun s =>
  let outcome := call.request.serve { store := faulty store, now := call.now } (s, call.plan)
  ⟨outcome.reply, outcome.state.1, outcome.journal⟩

def Keeps (store : CounterStore σ) (now : Binary64) (A : σ → Prop) (call : StoreCall) : Prop :=
  ∀ s, A s → A (store now call s).state

section
variable {store : CounterStore σ} {now : Binary64} {A : σ → Prop} {s : σ × FaultPlan}

theorem faulty_spec {P : Except Fault Value → σ → Prop} (hfault : ∀ fault, P (.error fault) s.1)
    (hcall : P (store now call s.1).reply (store now call s.1).state) :
    P (faulty store now call s).reply (faulty store now call s).state.1 := by
  unfold faulty
  dsimp only
  split
  · exact hfault _
  · exact hcall

theorem keeps_faulty (h : Keeps store now A call) : Keeps (faulty store) now (fun s => A s.1) call :=
  fun s hs => faulty_spec (P := fun _ s' => A s') (fun _ => hs) (h s.1 hs)

theorem closed_faulty :
    Closed { store := faulty store, now := now } (Keeps store now A)
      fun s j => A s.1 ∧ Unfinished j :=
  Closed.and ⟨fun _ s _ hcall h => keeps_faulty hcall s h, fun _ _ _ h => h, fun _ _ _ h => h⟩
    (closed_unfinished _)

variable {P : Except Fault Value → σ → Prop}

theorem triple_ask_faulty (hfault : ∀ fault, P (.error fault) s.1)
    (hcall : Triple (store now call) s.1 [] (fun value s' _ => P (.ok value) s')
      fun fault s' _ => P (.error fault) s') (hj : Unfinished j) :
    Triple (ask { store := faulty store, now := now } call) s j
      (fun reply s' j' => P reply s'.1 ∧ Unfinished j') E :=
  triple_ask ⟨faulty_spec hfault hcall.spec, (closed_unfinished fun _ => True).ask _ _ _ trivial hj⟩

theorem triple_demand_faulty (hfault : ∀ fault, P (.error fault) s.1)
    (hcall : Triple (store now call) s.1 [] (fun value s' _ => P (.ok value) s')
      fun fault s' _ => P (.error fault) s') (hj : Unfinished j) :
    Triple (demand { store := faulty store, now := now } call) s j
      (fun value s' j' => P (.ok value) s'.1 ∧ Unfinished j')
      (fun halt s' j' => (∃ fault, halt = .fault fault ∧ P (.error fault) s'.1) ∧ Unfinished j') := by
  refine Triple.bind (triple_ask_faulty hfault hcall hj) ?_
  rintro reply s' j' ⟨hreply, hj'⟩
  refine triple_orReject (fun value hvalue => ?_) fun fault hfault => ?_
  · rw [hvalue] at hreply
    exact ⟨hreply, hj'⟩
  · rw [hfault] at hreply
    exact ⟨⟨fault, rfl, hreply⟩, hj'⟩

theorem serveFaulty_keeps (h : ∀ call, call.isRead = true → Keeps store now A call)
    {request : Request Binary64} (hrequest : request.isRead = true) {s : σ} (hs : A s)
    (plan : FaultPlan) : A (Request.serveFaulty store ⟨now, request, plan⟩ s).state :=
  serve_preserves (w := { store := faulty store, now := now }) (I := fun s => A s.1)
    (fun call hcall => keeps_faulty (h call hcall)) hrequest (s := (s, plan)) hs

end

end SlidingTally
