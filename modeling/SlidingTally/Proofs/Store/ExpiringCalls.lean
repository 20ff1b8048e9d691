import SlidingTally.Proofs.Action.Triple
import SlidingTally.Proofs.Service.Request
import SlidingTally.Proofs.Store.ExpiringMap

/-!
# The calls of an expiring map

What each call of an expiring map replies and leaves, by what the map has of its key, and what
calls leave alone: a read everything, and any call what is not about its key.
-/

namespace SlidingTally.ExpiringMap

open SlidingTally.Action (Evaluates Preserves)

section
variable {m : State} {options : MemoryStore.Options} {now ttl : Binary64} {key : Key}

@[simp] theorem put_put (m : State) (key : Key) (first second : Held) :
    (m.put key first).put key second = m.put key second := by
  unfold State.put
  congr
  funext identity
  dsimp only
  split <;> rfl

theorem find?_put_self (m : State) (key : Key) (value : Value) :
    (m.put key ⟨value, none⟩).find? now key = some ⟨value, none⟩ := by
  rw [find?_put, if_pos rfl]
  rfl

theorem evaluates_require (h : m.initialized = true) : Evaluates require m () m := by
  refine ⟨[], ?_⟩
  unfold require
  rw [Action.run_bind_ok (Action.run_view State.initialized m), h]
  rfl

theorem evaluates_look : Evaluates (look now key) m (m.find? now key) m := ⟨[], rfl⟩

theorem evaluates_isInitialized (options : MemoryStore.Options) (now : Binary64)
    (h : m.initialized = true) :
    Evaluates (store options now .isInitialized) m (.bool true) m :=
  ⟨[], by rw [← h]; rfl⟩

theorem evaluates_increment_none (h : m.initialized = true) (hfind : m.find? now key = none)
    (hcreates : options.createsOnIncrement.truthy = true) :
    Evaluates (store options now (.increment key)) m (.number 1)
      (m.put key ⟨.number 1, none⟩) := by
  refine (evaluates_require h).bind (evaluates_look.bind ?_)
  rw [hfind]
  dsimp only
  rw [if_pos hcreates]
  exact ⟨[], rfl⟩

theorem evaluates_increment_null (h : m.initialized = true) (hfind : m.find? now key = none)
    (hcreates : options.createsOnIncrement.truthy = false) :
    Evaluates (store options now (.increment key)) m .null m := by
  refine (evaluates_require h).bind (evaluates_look.bind ?_)
  rw [hfind]
  dsimp only
  rw [if_neg (by simp [hcreates])]
  exact ⟨[], rfl⟩

theorem evaluates_increment_some (options : MemoryStore.Options) (h : m.initialized = true)
    (hfind : m.find? now key = some ⟨.number x, expiresAt⟩) (hx : x.isInteger = true) :
    Evaluates (store options now (.increment key)) m (.number (x + 1))
      (m.put key ⟨.number (x + 1), expiresAt⟩) := by
  refine (evaluates_require h).bind (evaluates_look.bind ?_)
  rw [hfind]
  refine Evaluates.bind ⟨[], rfl⟩ ?_
  rw [if_pos hx]
  exact ⟨[], rfl⟩

theorem evaluates_addIfAbsent (options : MemoryStore.Options) (value : Value) (ttl : Binary64)
    (h : m.initialized = true) (hfind : m.find? now key = none) :
    Evaluates (store options now (.addIfAbsent key value (.number ttl))) m (.bool true)
      (m.put key ⟨value, expiry now ttl⟩) := by
  refine (evaluates_require h).bind (evaluates_look.bind ?_)
  rw [hfind]
  exact ⟨[], rfl⟩

theorem evaluates_addIfAbsent_some (options : MemoryStore.Options) (value ttl : Value)
    (h : m.initialized = true) (hfind : m.find? now key = some held) :
    Evaluates (store options now (.addIfAbsent key value ttl)) m (.bool false) m := by
  refine (evaluates_require h).bind (evaluates_look.bind ?_)
  rw [hfind]
  exact Evaluates.pure _ _

theorem evaluates_touch (h : m.initialized = true) (hfind : m.find? now key = some held)
    (htouch : options.supportsTouch.truthy = true) (ttl : Binary64) :
    Evaluates (store options now (.touch key (.number ttl))) m TouchResult.touched.value
      (m.put key ⟨held.value, expiry now ttl⟩) := by
  refine (evaluates_require h).bind ?_
  rw [if_pos htouch]
  refine evaluates_look.bind ?_
  rw [hfind]
  exact ⟨[], rfl⟩

theorem evaluates_touch_none (h : m.initialized = true) (hfind : m.find? now key = none)
    (htouch : options.supportsTouch.truthy = true) (ttl : Value) :
    Evaluates (store options now (.touch key ttl)) m TouchResult.notFound.value m := by
  refine (evaluates_require h).bind ?_
  rw [if_pos htouch]
  refine evaluates_look.bind ?_
  rw [hfind]
  exact Evaluates.pure _ _

theorem evaluates_touch_unsupported (h : m.initialized = true)
    (htouch : options.supportsTouch.truthy = false) :
    Evaluates (store options now (.touch key (.number ttl))) m TouchResult.unsupported.value m := by
  refine (evaluates_require h).bind ?_
  rw [if_neg (by simp [htouch])]
  exact ⟨[], rfl⟩

theorem evaluates_set (options : MemoryStore.Options) (now : Binary64) (key : Key) (value : Value)
    (ttl : Binary64) (h : m.initialized = true) :
    Evaluates (store options now (.set key value (.number ttl))) m .undefined
      (m.put key ⟨value, expiry now ttl⟩) :=
  (evaluates_require h).bind ⟨[], rfl⟩

theorem evaluates_get (options : MemoryStore.Options) (now : Binary64) (key : Key)
    (h : m.initialized = true) :
    Evaluates (store options now (.get key)) m (valueOf (m.find? now key)) m :=
  (evaluates_require h).bind (evaluates_look.bind (Evaluates.pure _ _))

def found? (m : State) (now : Binary64) (key : Key) : Option (Key × Value) :=
  (m.find? now key).map fun held => (key, held.value)

theorem evaluates_collect (keys : List Key) :
    Evaluates (collect now keys) m (keys.filterMap (found? m now)) m := by
  induction keys with
  | nil => exact ⟨[], rfl⟩
  | cons key rest ih =>
    refine evaluates_look.bind ?_
    cases hfind : m.find? now key with
    | none => simpa [found?, hfind] using ih
    | some held =>
      have hcons : (key :: rest).filterMap (found? m now) =
          (key, held.value) :: rest.filterMap (found? m now) := by simp [found?, hfind]
      rw [hcons]
      exact ih.bind (Evaluates.pure _ _)

theorem evaluates_getMulti (options : MemoryStore.Options) (now : Binary64)
    (h : m.initialized = true) (texts : List String) :
    Evaluates (store options now (.getMulti (.list (texts.map .text)))) m
      (.table (Value.entriesOf ((texts.map Key.text).filterMap (found? m now)))) m := by
  have hkeys : (texts.map Value.text).filterMap Key.ofSimple? = texts.map Key.text := by
    rw [List.filterMap_map, ← List.filterMap_eq_map]
    rfl
  refine (evaluates_require h).bind (Evaluates.bind ⟨[], rfl⟩ ?_)
  rw [hkeys]
  exact (evaluates_collect _).bind (Evaluates.pure _ _)

theorem store_set (options : MemoryStore.Options) (now : Binary64) (key : Key) (value ttl : Value)
    (h : m.initialized = true) :
    (store options now (.set key value ttl) m).state = m ∨
      ∃ held, (store options now (.set key value ttl) m).state = m.put key held := by
  obtain ⟨entries, hrequire⟩ := evaluates_require h
  show (set now key value ttl m).state = m ∨ ∃ held, (set now key value ttl m).state = m.put key held
  unfold set
  rw [Action.run_bind_ok hrequire]
  unfold write
  cases ttl.asNumber with
  | ok seconds => exact .inr ⟨⟨value, expiry now seconds⟩, rfl⟩
  | error fault => exact .inl rfl

-- ---------------------------------------------------------------------------
-- What calls leave alone
-- ---------------------------------------------------------------------------

section
variable {I : State → Prop}

theorem preserves_require : Preserves I require :=
  Preserves.bind (Preserves.view _) fun _ => (Preserves.pure _).ite (Preserves.fail _)

theorem preserves_look (now : Binary64) (key : Key) : Preserves I (look now key) :=
  Preserves.view _

theorem preserves_collect (now : Binary64) (keys : List Key) : Preserves I (collect now keys) := by
  induction keys with
  | nil => exact Preserves.pure _
  | cons key rest ih =>
    refine Preserves.bind (preserves_look now key) fun held => ?_
    cases held with
    | none => exact ih
    | some held => exact Preserves.bind ih fun _ => Preserves.pure _

theorem preserves_read (hcall : call.isRead = true) : Preserves I (store options now call) := by
  cases call with
  | isInitialized => exact Preserves.bind (Preserves.view _) fun _ => Preserves.pure _
  | get key =>
    exact Preserves.bind preserves_require fun _ =>
      Preserves.bind (preserves_look now key) fun _ => Preserves.pure _
  | getMulti keys =>
    exact Preserves.bind preserves_require fun _ => Preserves.bind (Preserves.ofExcept _) fun _ =>
      Preserves.bind (preserves_collect now _) fun _ => Preserves.pure _
  | _ => cases hcall

theorem store_read (hcall : call.isRead = true) (m : State) :
    (store options now call m).state = m :=
  preserves_read (I := (· = m)) hcall m rfl

variable (hput : ∀ m held, I m → I (m.put key held))

include hput

theorem preserves_put (held : Held) :
    Preserves I (Action.update fun m => m.put key held : StoreAction State Unit) :=
  Preserves.update fun m hm => hput m held hm

theorem preserves_write (value ttl : Value) : Preserves I (write now key value ttl) :=
  Preserves.bind (Preserves.ofExcept _) fun _ => preserves_put hput _

theorem preserves_key (hcall : call.key? = some key) : Preserves I (store options now call) := by
  cases call with
  | increment other =>
    cases hcall
    refine Preserves.bind preserves_require fun _ => Preserves.bind (preserves_look now key) fun held => ?_
    cases held with
    | none =>
      exact (Preserves.bind (preserves_put hput _) fun _ => Preserves.pure _).ite (Preserves.pure _)
    | some held =>
      refine Preserves.bind (Preserves.ofExcept _) fun current => Preserves.ite ?_ ?_
      · exact Preserves.bind (preserves_put hput _) fun _ => Preserves.pure _
      · exact Preserves.bind (Preserves.ofExcept _) fun _ => Preserves.fail _
  | addIfAbsent other value ttl =>
    cases hcall
    refine Preserves.bind preserves_require fun _ => Preserves.bind (preserves_look now key) fun held => ?_
    cases held with
    | none => exact Preserves.bind (preserves_write hput _ _) fun _ => Preserves.pure _
    | some held => exact Preserves.pure _
  | touch other ttl =>
    cases hcall
    refine Preserves.bind preserves_require fun _ =>
      Preserves.ite (Preserves.bind (preserves_look now key) fun held => ?_) (Preserves.pure _)
    cases held with
    | none => exact Preserves.pure _
    | some held =>
      exact Preserves.bind (Preserves.ofExcept _) fun _ =>
        Preserves.bind (preserves_put hput _) fun _ => Preserves.pure _
  | set other value ttl =>
    cases hcall
    exact Preserves.bind preserves_require fun _ =>
      Preserves.bind (preserves_write hput _ _) fun _ => Preserves.pure _
  | get other => exact preserves_read rfl
  | _ => cases hcall

end

end

end SlidingTally.ExpiringMap
