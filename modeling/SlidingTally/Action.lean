/-!
# Actions

An `Action` runs on a state, keeps a journal of what happened, and either replies or
fails. A failure ends what follows but keeps the state and the journal. The run lemmas say
what each combinator does to an `Outcome`, so that proofs need not unfold it.
-/

namespace SlidingTally

structure Outcome (ε φ σ α : Type) where
  reply : Except φ α
  state : σ
  journal : List ε

/-- A computation on a state of type `σ` with journal entries in `ε` and failures in `φ`. -/
def Action (ε φ σ α : Type) : Type := σ → Outcome ε φ σ α

namespace Action

variable {ε φ φ' σ σ' α β : Type}

protected def pure (a : α) : Action ε φ σ α := fun s => ⟨.ok a, s, []⟩

protected def bind (x : Action ε φ σ α) (f : α → Action ε φ σ β) : Action ε φ σ β := fun s =>
  let first := x s
  match first.reply with
  | .ok a =>
    let second := f a first.state
    ⟨second.reply, second.state, first.journal ++ second.journal⟩
  | .error e => ⟨.error e, first.state, first.journal⟩

instance : Monad (Action ε φ σ) where
  pure := Action.pure
  bind := Action.bind

def fail (e : φ) : Action ε φ σ α := fun s => ⟨.error e, s, []⟩

def record (entry : ε) : Action ε φ σ Unit := fun s => ⟨.ok (), s, [entry]⟩

def view (f : σ → α) : Action ε φ σ α := fun s => ⟨.ok (f s), s, []⟩

def update (f : σ → σ) : Action ε φ σ Unit := fun s => ⟨.ok (), f s, []⟩

/-- Replies with the failure instead of failing. -/
def attempt (x : Action ε φ σ α) : Action ε φ' σ (Except φ α) := fun s =>
  let outcome := x s
  ⟨.ok outcome.reply, outcome.state, outcome.journal⟩

def ofExcept : Except φ α → Action ε φ σ α
  | .ok a => Action.pure a
  | .error e => fail e

def mapFault (f : φ → φ') (x : Action ε φ σ α) : Action ε φ' σ α := fun s =>
  let outcome := x s
  ⟨outcome.reply.mapError f, outcome.state, outcome.journal⟩

def onPart (get : σ' → σ) (put : σ → σ' → σ') (x : Action ε φ σ α) : Action ε φ σ' α :=
  fun s =>
    let outcome := x (get s)
    ⟨outcome.reply, put outcome.state s, outcome.journal⟩

-- ---------------------------------------------------------------------------
-- Runs
-- ---------------------------------------------------------------------------

@[simp] theorem run_pure (a : α) (s : σ) :
    (pure a : Action ε φ σ α) s = ⟨.ok a, s, []⟩ := rfl

theorem run_bind (x : Action ε φ σ α) (f : α → Action ε φ σ β) (s : σ) :
    (x >>= f) s = match (x s).reply with
      | .ok a => ⟨(f a (x s).state).reply, (f a (x s).state).state,
          (x s).journal ++ (f a (x s).state).journal⟩
      | .error e => ⟨.error e, (x s).state, (x s).journal⟩ := rfl

theorem run_bind_ok {x : Action ε φ σ α} {s s' : σ} {a : α} {entries : List ε}
    (h : x s = ⟨.ok a, s', entries⟩) (f : α → Action ε φ σ β) :
    (x >>= f) s = ⟨(f a s').reply, (f a s').state, entries ++ (f a s').journal⟩ := by
  simp [run_bind, h]

theorem run_bind_error {x : Action ε φ σ α} {s s' : σ} {e : φ} {entries : List ε}
    (h : x s = ⟨.error e, s', entries⟩) (f : α → Action ε φ σ β) :
    (x >>= f) s = ⟨.error e, s', entries⟩ := by
  simp [run_bind, h]

@[simp] theorem run_fail (e : φ) (s : σ) :
    (fail e : Action ε φ σ α) s = ⟨.error e, s, []⟩ := rfl

@[simp] theorem run_record (entry : ε) (s : σ) :
    (record entry : Action ε φ σ Unit) s = ⟨.ok (), s, [entry]⟩ := rfl

@[simp] theorem run_view (f : σ → α) (s : σ) :
    (view f : Action ε φ σ α) s = ⟨.ok (f s), s, []⟩ := rfl

@[simp] theorem run_update (f : σ → σ) (s : σ) :
    (update f : Action ε φ σ Unit) s = ⟨.ok (), f s, []⟩ := rfl

@[simp] theorem run_attempt (x : Action ε φ σ α) (s : σ) :
    (attempt x : Action ε φ' σ _) s = ⟨.ok (x s).reply, (x s).state, (x s).journal⟩ := rfl

-- ---------------------------------------------------------------------------
-- The monad laws
-- ---------------------------------------------------------------------------

theorem map_id (x : Action ε φ σ α) : Action.bind x (fun a => Action.pure a) = x := by
  funext s
  cases h : x s with
  | mk reply state journal => cases reply <;> simp [Action.bind, Action.pure, h]

theorem pure_bind (a : α) (f : α → Action ε φ σ β) : Action.bind (Action.pure a) f = f a := by
  funext s
  simp [Action.bind, Action.pure]

theorem bind_assoc {γ : Type} (x : Action ε φ σ α) (f : α → Action ε φ σ β)
    (g : β → Action ε φ σ γ) :
    Action.bind (Action.bind x f) g = Action.bind x (fun a => Action.bind (f a) g) := by
  funext s
  unfold Action.bind
  cases x s with
  | mk reply state journal =>
    cases reply with
    | error e => rfl
    | ok a =>
      dsimp only
      cases f a state with
      | mk reply' state' journal' => cases reply' <;> simp [List.append_assoc]

instance : LawfulMonad (Action ε φ σ) :=
  LawfulMonad.mk' _ (fun x => map_id x) pure_bind bind_assoc

end Action

end SlidingTally
