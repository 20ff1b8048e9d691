import SlidingTally.Action

/-!
# Triples

`Triple x s j Q E` says what an action ends with from the state `s`, once the entries `j` were
written: a reply for which `Q` holds, or a failure for which `E` does, each with the state and
all the entries up to then. `Evaluates x s a s'` says what it replies and leaves, whatever it
writes. `Preserves I x` says that `x` leaves `I` true of the state. There is a rule for each
combinator.
-/

namespace SlidingTally.Action

variable {ε φ φ' σ α β : Type}

def Triple (x : Action ε φ σ α) (s : σ) (j : List ε) (Q : α → σ → List ε → Prop)
    (E : φ → σ → List ε → Prop) : Prop :=
  match (x s).reply with
  | .ok a => Q a (x s).state (j ++ (x s).journal)
  | .error e => E e (x s).state (j ++ (x s).journal)

theorem reply_bind_ok {x : Action ε φ σ α} {f : α → Action ε φ σ β} :
    ((x >>= f) s).reply = .ok b ↔
      ∃ a, (x s).reply = .ok a ∧ (f a (x s).state).reply = .ok b := by
  rw [run_bind]
  cases (x s).reply <;> simp

@[simp] theorem reply_ofExcept (result : Except φ α) (s : σ) :
    ((Action.ofExcept result : Action ε φ σ α) s).reply = result := by
  cases result <;> rfl

theorem Triple.of_run {x : Action ε φ σ α} (h : x s = ⟨.ok a, s', new⟩) (hq : Q a s' (j ++ new)) :
    Triple x s j Q E := by
  simp only [Triple, h]
  exact hq

theorem Triple.of_run_error {x : Action ε φ σ α} (h : x s = ⟨.error e, s', new⟩)
    (he : E e s' (j ++ new)) : Triple x s j Q E := by
  simp only [Triple, h]
  exact he

theorem Triple.spec {x : Action ε φ σ α} {P : Except φ α → σ → Prop}
    (h : Triple x s j (fun a s' _ => P (.ok a) s') fun e s' _ => P (.error e) s') :
    P (x s).reply (x s).state := by
  unfold Triple at h
  split at h <;> simp_all only

theorem Triple.of_reply {x : Action ε φ σ α} (h : Triple x s j Q E) (hreply : (x s).reply = .ok a) :
    Q a (x s).state (j ++ (x s).journal) := by
  unfold Triple at h
  rwa [hreply] at h

theorem Triple.always {x : Action ε φ σ α} {P : σ → List ε → Prop}
    (h : Triple x s [] (fun _ => P) fun _ => P) : P (x s).state (x s).journal := by
  unfold Triple at h
  split at h <;> simpa only [List.nil_append] using h

theorem Triple.outcome {x : Action ε φ σ α} (h : Triple x s [] Q E) :
    (∃ a, (x s).reply = .ok a ∧ Q a (x s).state (x s).journal) ∨
      ∃ e, (x s).reply = .error e ∧ E e (x s).state (x s).journal := by
  unfold Triple at h
  split at h
  · exact .inl ⟨_, ‹_›, h⟩
  · exact .inr ⟨_, ‹_›, h⟩

theorem Triple.replies {x : Action ε φ σ α} (h : Triple x s [] Q fun _ _ _ => False) :
    ∃ a, (x s).reply = .ok a ∧ Q a (x s).state (x s).journal := by
  rcases h.outcome with hreplies | ⟨e, -, hfalse⟩
  · exact hreplies
  · exact hfalse.elim

theorem Triple.mono {x : Action ε φ σ α} (h : Triple x s j Q E)
    (hq : ∀ a s' j', Q a s' j' → Q' a s' j') (he : ∀ e s' j', E e s' j' → E' e s' j') :
    Triple x s j Q' E' := by
  unfold Triple at h ⊢
  split at h
  · exact hq _ _ _ h
  · exact he _ _ _ h

theorem Triple.and {x : Action ε φ σ α} (h : Triple x s j Q E) (h' : Triple x s j Q' E') :
    Triple x s j (fun a s' j' => Q a s' j' ∧ Q' a s' j') fun e s' j' => E e s' j' ∧ E' e s' j' := by
  unfold Triple at h h' ⊢
  split at h <;> simp_all only [and_self]

theorem Triple.grows {x : Action ε φ σ α} {P : List ε → Prop}
    (hgrows : ∀ j new, P j → P (j ++ new)) (h : P j) :
    Triple x s j (fun _ _ => P) fun _ _ => P := by
  unfold Triple
  split
  · exact hgrows _ _ h
  · exact hgrows _ _ h

theorem Triple.pure {a : α} (h : Q a s j) :
    Triple (Pure.pure a : Action ε φ σ α) s j Q E :=
  Triple.of_run (run_pure a s) (by rwa [List.append_nil])

theorem Triple.fail {e : φ} (h : E e s j) :
    Triple (Action.fail e : Action ε φ σ α) s j Q E :=
  Triple.of_run_error (run_fail e s) (by rwa [List.append_nil])

theorem Triple.record {entry : ε} (h : Q () s (j ++ [entry])) :
    Triple (Action.record entry : Action ε φ σ Unit) s j Q E :=
  Triple.of_run (run_record entry s) h

theorem Triple.view {f : σ → α} (h : Q (f s) s j) :
    Triple (Action.view f : Action ε φ σ α) s j Q E :=
  Triple.of_run (run_view f s) (by rwa [List.append_nil])

theorem Triple.update {f : σ → σ} (h : Q () (f s) j) :
    Triple (Action.update f : Action ε φ σ Unit) s j Q E :=
  Triple.of_run (run_update f s) (by rwa [List.append_nil])

theorem Triple.attempt {x : Action ε φ σ α}
    (h : Triple x s j (fun a => Q (.ok a)) fun e => Q (.error e)) :
    Triple (Action.attempt x : Action ε φ' σ (Except φ α)) s j Q E := by
  unfold Triple at h
  refine Triple.of_run (run_attempt x s) ?_
  split at h
  · rename_i a ha
    rwa [ha]
  · rename_i e he
    rwa [he]

theorem Triple.bind {x : Action ε φ σ α} {f : α → Action ε φ σ β} (hx : Triple x s j Q E)
    (hf : ∀ a s' j', Q a s' j' → Triple (f a) s' j' Q' E) : Triple (x >>= f) s j Q' E := by
  unfold Triple at hx
  split at hx
  · rename_i a ha
    have h := hf a _ _ hx
    unfold Triple at h ⊢
    simp only [run_bind, ha, ← List.append_assoc]
    exact h
  · rename_i e he
    simpa only [Triple, run_bind, he] using hx

-- ---------------------------------------------------------------------------
-- Replies without a journal
-- ---------------------------------------------------------------------------

theorem run_bind_quiet {x : Action ε φ σ α} (h : x s = ⟨.ok a, s', []⟩) (f : α → Action ε φ σ β) :
    (x >>= f) s = f a s' := by
  simp [run_bind_ok h]

theorem run_bind_except {x : Action ε φ σ α} {f : α → Action ε φ σ β} {g : α → Except φ β}
    {reply : Except φ α} (hx : x s = ⟨reply, s', []⟩) (hf : ∀ a, f a s' = ⟨g a, s', []⟩) :
    (x >>= f) s = ⟨reply >>= g, s', []⟩ := by
  cases reply with
  | ok a => exact (run_bind_quiet hx f).trans (hf a)
  | error e => exact run_bind_error hx f

theorem run_ofExcept (result : Except φ α) (s : σ) :
    (Action.ofExcept result : Action ε φ σ α) s = ⟨result, s, []⟩ := by
  cases result <;> rfl

-- ---------------------------------------------------------------------------
-- Evaluation
-- ---------------------------------------------------------------------------

def Evaluates (x : Action ε φ σ α) (s : σ) (a : α) (s' : σ) : Prop :=
  ∃ entries, x s = ⟨.ok a, s', entries⟩

theorem Evaluates.reply {x : Action ε φ σ α} (h : Evaluates x s a s') : (x s).reply = .ok a := by
  obtain ⟨entries, hrun⟩ := h
  rw [hrun]

theorem Evaluates.state {x : Action ε φ σ α} (h : Evaluates x s a s') : (x s).state = s' := by
  obtain ⟨entries, hrun⟩ := h
  rw [hrun]

theorem Evaluates.triple {x : Action ε φ σ α} (h : Evaluates x s a s') (htriple : Triple x s j Q E) :
    Triple x s j (fun b s'' j' => b = a ∧ s'' = s' ∧ Q a s' j') E' := by
  obtain ⟨entries, hrun⟩ := h
  refine Triple.of_run hrun ⟨rfl, rfl, ?_⟩
  simpa only [Triple, hrun] using htriple

theorem Evaluates.pure (a : α) (s : σ) : Evaluates (Pure.pure a : Action ε φ σ α) s a s :=
  ⟨[], rfl⟩

theorem Evaluates.bind {x : Action ε φ σ α} {f : α → Action ε φ σ β} (hx : Evaluates x s a s')
    (hf : Evaluates (f a) s' b s'') : Evaluates (x >>= f) s b s'' := by
  obtain ⟨first, hfirst⟩ := hx
  obtain ⟨second, hsecond⟩ := hf
  refine ⟨first ++ second, ?_⟩
  rw [run_bind_ok hfirst, hsecond]

theorem Evaluates.state_bind {x : Action ε φ σ α} (h : Evaluates x s a s')
    (f : α → Action ε φ σ β) : ((x >>= f) s).state = (f a s').state := by
  obtain ⟨entries, hrun⟩ := h
  rw [run_bind_ok hrun]

-- ---------------------------------------------------------------------------
-- What an action preserves
-- ---------------------------------------------------------------------------

/-- What holds of the state before an action holds after it, whether it replies or fails. -/
def Preserves (I : σ → Prop) (x : Action ε φ σ α) : Prop := ∀ s, I s → I (x s).state

section
variable {I : σ → Prop}

theorem Preserves.pure (a : α) : Preserves I (Pure.pure a : Action ε φ σ α) := fun _ h => h

theorem Preserves.fail (e : φ) : Preserves I (Action.fail e : Action ε φ σ α) := fun _ h => h

theorem Preserves.record (entry : ε) : Preserves I (Action.record entry : Action ε φ σ Unit) :=
  fun _ h => h

theorem Preserves.view (f : σ → α) : Preserves I (Action.view f : Action ε φ σ α) := fun _ h => h

theorem Preserves.update {f : σ → σ} (h : ∀ s, I s → I (f s)) :
    Preserves I (Action.update f : Action ε φ σ Unit) := h

theorem Preserves.ofExcept (result : Except φ α) :
    Preserves I (Action.ofExcept result : Action ε φ σ α) := by
  cases result with
  | ok a => exact Preserves.pure a
  | error e => exact Preserves.fail e

theorem Preserves.bind {x : Action ε φ σ α} {f : α → Action ε φ σ β} (hx : Preserves I x)
    (hf : ∀ a, Preserves I (f a)) : Preserves I (x >>= f) := by
  intro s hs
  have hfirst := hx s hs
  rw [run_bind]
  cases (x s).reply with
  | ok a => exact hf a _ hfirst
  | error e => exact hfirst

theorem Preserves.ite {c : Prop} [Decidable c] {x y : Action ε φ σ α} (hx : Preserves I x)
    (hy : Preserves I y) : Preserves I (if c then x else y) := by
  split
  · exact hx
  · exact hy

theorem Preserves.bind_reply {Q : α → Prop} {x : Action ε φ σ α} {f : α → Action ε φ σ β}
    (hx : Preserves I x) (hreply : ∀ s, Triple x s [] (fun a _ _ => Q a) fun _ _ _ => True)
    (hf : ∀ a, Q a → Preserves I (f a)) : Preserves I (x >>= f) := by
  intro s hs
  have hfirst := hx s hs
  have hpossible := hreply s
  unfold Triple at hpossible
  rw [run_bind]
  cases ha : (x s).reply with
  | ok a =>
    rw [ha] at hpossible
    exact hf a hpossible _ hfirst
  | error e => exact hfirst

theorem Preserves.attempt {x : Action ε φ σ α} (h : Preserves I x) :
    Preserves I (Action.attempt x : Action ε φ' σ (Except φ α)) := h

theorem Preserves.mapFault {x : Action ε φ σ α} (h : Preserves I x) (f : φ → φ') :
    Preserves I (Action.mapFault f x) := h

theorem Preserves.triple {x : Action ε φ σ α} (h : Preserves I x) (hs : I s) :
    Triple x s j (fun _ s' _ => I s') fun _ s' _ => I s' := by
  have hs' := h s hs
  unfold Triple
  split
  · exact hs'
  · exact hs'

end

end SlidingTally.Action
