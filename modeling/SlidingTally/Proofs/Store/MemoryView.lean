import SlidingTally.Proofs.Action.Runs
import SlidingTally.Proofs.Action.Triple
import SlidingTally.Store.Memory

/-!
# What the in-memory store shows

Dropping entries, on a look or in a sweep, changes nothing that is to be seen, neither at that
reading nor at one at which what is expired stays so. What else a state has to keep is a
predicate that is `Stable`: the rules of the calls carry it along and ask only about what is put.
-/

namespace SlidingTally.MemoryStore

open SlidingTally.Action (Triple)

-- ---------------------------------------------------------------------------
-- Entries to be seen
-- ---------------------------------------------------------------------------

theorem live?_drop (s : State) (now : Binary64) (key other : Key) :
    (s.drop key).live? now other =
      if other.identity = key.identity then none else s.live? now other := by
  unfold State.live? State.stored? State.drop
  rw [Table.get?_erase]
  split <;> rfl

theorem live?_put (s : State) (now : Binary64) (key other : Key) (entry : Entry) :
    (s.put key entry).live? now other =
      if other.identity = key.identity then (some entry).filter fun entry => !entry.isExpired now
      else s.live? now other := by
  unfold State.live? State.stored? State.put
  rw [Table.get?_insert]
  split <;> rfl

section
variable {now later : Binary64}
variable (hstays : ∀ entry : Entry, entry.isExpired now = true → entry.isExpired later = true)

include hstays

theorem live?_afterLook (s : State) (key other : Key) :
    (s.afterLook now key).live? later other = s.live? later other := by
  unfold State.afterLook
  split
  · rename_i entry hentry
    split
    · rename_i hexpired
      rw [live?_drop]
      split
      · rename_i hsame
        have hstored : s.stored? other = some entry := by
          rw [← hentry, State.stored?, State.stored?, hsame]
        simp [State.live?, hstored, Option.filter, hstays entry hexpired]
      · rfl
    · rfl
  · rfl

theorem live?_sweep (s : State) (other : Key) :
    (s.sweep now).live? later other = s.live? later other := by
  unfold State.sweep
  split
  · rfl
  · unfold State.live? State.stored?
    simp only [Table.get?_filter]
    cases s.entries.get? other.identity with
    | none => rfl
    | some entry =>
      cases hnow : entry.isExpired now with
      | false => simp [Option.filter, hnow]
      | true => simp [Option.filter, hnow, hstays entry hnow]

end

theorem afterLook_of_live {s : State} {key : Key} {entry : Entry}
    (h : s.live? now key = some entry) : s.afterLook now key = s := by
  obtain ⟨hstored, hpresent⟩ := Option.filter_eq_some_iff.mp h
  unfold State.afterLook
  rw [hstored]
  exact if_neg fun hexpired => by simp [hexpired] at hpresent

@[simp] theorem afterLook_initialized (s : State) (now : Binary64) (key : Key) :
    (s.afterLook now key).initialized = s.initialized := by
  unfold State.afterLook
  split
  · split <;> rfl
  · rfl

@[simp] theorem sweep_initialized (s : State) (now : Binary64) :
    (s.sweep now).initialized = s.initialized := by
  unfold State.sweep
  split <;> rfl

-- ---------------------------------------------------------------------------
-- Entries that are stored
-- ---------------------------------------------------------------------------

def State.All (P : Key.Identity → Entry → Prop) (s : State) : Prop :=
  ∀ identity entry, s.entries.get? identity = some entry → P identity entry

section
variable {P : Key.Identity → Entry → Prop} {s : State}

theorem State.All.live? (h : s.All P) (hentry : s.live? now key = some entry) :
    P key.identity entry :=
  h _ _ (Option.filter_eq_some_iff.mp hentry).1

theorem State.All.put (h : s.All P) (hentry : P key.identity entry) : (s.put key entry).All P := by
  intro identity other hother
  rw [State.put, Table.get?_insert] at hother
  split at hother
  · rename_i hsame
    cases hother
    rw [hsame]
    exact hentry
  · exact h _ _ hother

theorem State.All.afterLook (h : s.All P) (now : Binary64) (key : Key) :
    (s.afterLook now key).All P := by
  unfold State.afterLook
  split
  · split
    · intro identity other hother
      rw [State.drop, Table.get?_erase] at hother
      split at hother
      · cases hother
      · exact h _ _ hother
    · exact h
  · exact h

theorem State.All.sweep (h : s.All P) (now : Binary64) : (s.sweep now).All P := by
  unfold State.sweep
  split
  · exact h
  · intro identity other hother
    rw [Table.get?_filter] at hother
    exact h _ _ (Option.filter_eq_some_iff.mp hother).1

end

-- ---------------------------------------------------------------------------
-- The calls
-- ---------------------------------------------------------------------------

theorem run_require {s : State} (h : s.initialized = true) : require s = ⟨.ok (), s, []⟩ := by
  unfold require
  rw [Action.run_bind_ok (Action.run_view State.initialized s), h]
  rfl

theorem run_look_of_live {s : State} {key : Key} {entry : Entry}
    (h : s.live? now key = some entry) : look now key s = ⟨.ok (some entry), s, []⟩ := by
  rw [look, h, afterLook_of_live h]

structure Stable (now : Binary64) (A : State → Prop) : Prop where
  afterLook : ∀ s key, A s → A (s.afterLook now key)
  sweep : ∀ s, A s → A (s.sweep now)

theorem stable_view (now : Binary64) (key : Key) (expected : Option Entry) :
    Stable now fun s => s.live? now key = expected :=
  ⟨fun s looked h => by rw [live?_afterLook fun _ => id, h],
    fun s h => by rw [live?_sweep fun _ => id, h]⟩

theorem stable_all (now : Binary64) (P : Key.Identity → Entry → Prop) :
    Stable now fun s => s.All P :=
  ⟨fun _ key h => h.afterLook now key, fun _ h => h.sweep now⟩

section
variable {now : Binary64} {key : Key} {options : Options} {A : State → Prop} {s : State}
variable (hA : Stable now A)

theorem triple_require (h : A s) :
    Triple require s j (fun _ s' _ => A s') (fun _ s' _ => A s') := by
  refine Triple.bind (Q := fun _ s' _ => A s') (Triple.view h) ?_
  intro initialized s' j' h'
  cases initialized with
  | true => exact Triple.pure h'
  | false => exact Triple.fail h'

theorem triple_ofExcept {result : Except Fault α} (h : A s) :
    Triple (Action.ofExcept result : StoreAction State α) s j
      (fun a s' _ => result = .ok a ∧ A s') (fun _ s' _ => A s') := by
  cases result with
  | ok a => exact Triple.pure ⟨rfl, h⟩
  | error fault => exact Triple.fail h

include hA

theorem triple_look (h : A s) :
    Triple (look now key) s j (fun entry s' _ => s'.live? now key = entry ∧ A s') E := by
  have hrun : look now key s = ⟨.ok (s.live? now key), s.afterLook now key, []⟩ := rfl
  refine Triple.of_run hrun ⟨?_, hA.afterLook s key h⟩
  exact live?_afterLook (fun _ => id) s key key

theorem triple_write {B : State → Prop} (h : A s) (ttl : Value)
    (hput : ∀ s seconds, A s → ttl.asNumber = .ok seconds →
      B (s.put key ⟨key.inTable, value, expiry now seconds⟩)) :
    Triple (write now key value ttl) s j (fun _ s' _ => B s') (fun _ s' _ => A s') := by
  refine Triple.bind (Q := fun _ s' _ => A s') (Triple.update (hA.sweep s h)) fun _ s' j' h' => ?_
  refine Triple.bind (triple_ofExcept h') ?_
  rintro seconds s'' j'' ⟨hseconds, h''⟩
  exact Triple.update (hput s'' seconds h'' hseconds)

theorem triple_increment {B : Binary64 → State → Prop} (h : A s)
    (hnew : ∀ s, A s → s.live? now key = none → B 1 (s.put key ⟨key.inTable, .number 1, none⟩))
    (hnext : ∀ s entry x, A s → s.live? now key = some entry → entry.value.asNumber = .ok x →
      B (x + 1) (s.put key { entry with value := .number (x + 1) })) :
    Triple (increment options now key) s j
      (fun reply s' _ => reply = .null ∧ A s' ∨ ∃ x, reply = .number x ∧ B x s')
      (fun _ s' _ => A s') := by
  refine Triple.bind (triple_require h) fun _ s₁ j₁ h₁ => ?_
  refine Triple.bind (triple_look hA h₁) ?_
  rintro entry s₂ j₂ ⟨hentry, h₂⟩
  cases entry with
  | none =>
    dsimp only
    split
    · have hswept : (s₂.sweep now).live? now key = none := by
        rw [live?_sweep fun _ => id, hentry]
      refine Triple.bind (Q := fun _ s' _ => B 1 s')
        (Triple.update (hnew _ (hA.sweep s₂ h₂) hswept)) fun _ s₃ j₃ h₃ => ?_
      exact Triple.pure (.inr ⟨1, rfl, h₃⟩)
    · exact Triple.pure (.inl ⟨rfl, h₂⟩)
  | some entry =>
    refine Triple.bind (Q := fun x s' _ => entry.value.asNumber = .ok x ∧ A s' ∧
      s'.live? now key = some entry) ?_ ?_
    · exact (triple_ofExcept (A := fun s' => A s' ∧ s'.live? now key = some entry)
        ⟨h₂, hentry⟩).mono (fun _ _ _ h => h) fun _ _ _ h => h.1
    · rintro x s₃ j₃ ⟨hx, h₃, hentry⟩
      split
      · refine Triple.bind (Q := fun _ s' _ => B (x + 1) s')
          (Triple.update (hnext s₃ entry x h₃ hentry hx)) fun _ s₄ j₄ h₄ => ?_
        exact Triple.pure (.inr ⟨x + 1, rfl, h₄⟩)
      · refine Triple.bind (triple_ofExcept h₃) ?_
        rintro written s₄ j₄ ⟨-, h₄⟩
        exact Triple.fail h₄

theorem triple_addIfAbsent {B : State → Prop} (h : A s) (ttl : Value)
    (hput : ∀ s seconds, A s → s.live? now key = none → ttl.asNumber = .ok seconds →
      B (s.put key ⟨key.inTable, value, expiry now seconds⟩)) :
    Triple (addIfAbsent now key value ttl) s j
      (fun reply s' _ => reply = .bool true ∧ B s' ∨ reply = .bool false ∧ A s')
      (fun _ s' _ => A s') := by
  refine Triple.bind (triple_require h) fun _ s₁ j₁ h₁ => ?_
  refine Triple.bind (triple_look hA h₁) ?_
  rintro entry s₂ j₂ ⟨hentry, h₂⟩
  cases entry with
  | some entry => exact Triple.pure (.inr ⟨rfl, h₂⟩)
  | none =>
    have hview := stable_view now key none
    refine Triple.bind ((triple_write
      (⟨fun s key h => ⟨hA.afterLook s key h.1, hview.afterLook s key h.2⟩,
        fun s h => ⟨hA.sweep s h.1, hview.sweep s h.2⟩⟩ :
        Stable now fun s => A s ∧ s.live? now key = none)
      ⟨h₂, hentry⟩ ttl fun s seconds h hseconds => hput s seconds h.1 h.2 hseconds).mono
      (fun _ _ _ h => h) fun _ _ _ h => h.1) ?_
    exact fun _ s₃ j₃ h₃ => Triple.pure (.inl ⟨rfl, h₃⟩)

theorem triple_touch (h : A s) (ttl : Value)
    (hput : ∀ s entry seconds, A s → s.live? now key = some entry → ttl.asNumber = .ok seconds →
      A (s.put key { entry with expiresAt := expiry now seconds })) :
    Triple (touch options now key ttl) s j (fun _ s' _ => A s') (fun _ s' _ => A s') := by
  refine Triple.bind (triple_require h) fun _ s₁ j₁ h₁ => ?_
  split
  · refine Triple.bind (triple_look hA h₁) ?_
    rintro entry s₂ j₂ ⟨hentry, h₂⟩
    cases entry with
    | none => exact Triple.pure h₂
    | some entry =>
      refine Triple.bind ((triple_ofExcept (A := fun s' => A s' ∧ s'.live? now key = some entry)
        ⟨h₂, hentry⟩).mono (fun _ _ _ h => h) fun _ _ _ h => h.1) ?_
      rintro seconds s₃ j₃ ⟨hseconds, h₃, hentry⟩
      refine Triple.bind (Q := fun _ s' _ => A s')
        (Triple.update (hput s₃ entry seconds h₃ hentry hseconds)) fun _ s₄ j₄ h₄ => ?_
      exact Triple.pure h₄
  · exact Triple.pure h₁

theorem triple_set (h : A s) (ttl : Value)
    (hput : ∀ s seconds, A s → ttl.asNumber = .ok seconds →
      A (s.put key ⟨key.inTable, value, expiry now seconds⟩)) :
    Triple (set now key value ttl) s j (fun _ s' _ => A s') (fun _ s' _ => A s') := by
  refine Triple.bind (triple_require h) fun _ s₁ j₁ h₁ => ?_
  exact Triple.bind (triple_write hA h₁ ttl hput) fun _ s₂ j₂ h₂ => Triple.pure h₂

theorem triple_get (h : A s) :
    Triple (get now key) s j (fun _ s' _ => A s') (fun _ s' _ => A s') := by
  refine Triple.bind (triple_require h) fun _ s₁ j₁ h₁ => ?_
  refine Triple.bind (triple_look hA h₁) fun entry s₂ j₂ h₂ => ?_
  exact Triple.pure h₂.2

theorem triple_collect (keys : List Key) (h : A s) :
    Triple (collect now keys) s j (fun _ s' _ => A s') (fun _ s' _ => A s') := by
  induction keys generalizing s j with
  | nil => exact Triple.pure h
  | cons key rest ih =>
    refine Triple.bind (triple_look hA h) fun entry s₁ j₁ h₁ => ?_
    cases entry with
    | none => exact ih h₁.2
    | some entry => exact Triple.bind (ih h₁.2) fun _ s₂ j₂ h₂ => Triple.pure h₂

theorem triple_getMulti (keys : Value) (h : A s) :
    Triple (getMulti now keys) s j (fun _ s' _ => A s') (fun _ s' _ => A s') := by
  refine Triple.bind (triple_require h) fun _ s₁ j₁ h₁ => ?_
  refine Triple.bind (triple_ofExcept h₁) fun items s₂ j₂ h₂ => ?_
  exact Triple.bind (triple_collect hA _ h₂.2) fun _ s₃ j₃ h₃ => Triple.pure h₃

end

end SlidingTally.MemoryStore
