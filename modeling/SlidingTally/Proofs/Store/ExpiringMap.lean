import SlidingTally.Proofs.Number.Order
import SlidingTally.Proofs.Store.MemoryView

/-!
# The in-memory store as an expiring map

`ExpiringMap` holds values with an expiry and never drops one: what is expired just does not
count as present. The in-memory store drops entries when they are looked at and when it sweeps.
`Mirrors` relates the two through what is still to be seen, now or later, and each operation
keeps it with the same reply. Main statements: `alike_store` and `replies_eq_expiringMap`.
-/

namespace SlidingTally

-- ---------------------------------------------------------------------------
-- The map
-- ---------------------------------------------------------------------------

namespace ExpiringMap

structure Held where
  value : Value
  /-- Epoch milliseconds, none for no expiry. -/
  expiresAt : Option Binary64

structure State where
  initialized : Bool := false
  held : Key.Identity → Option Held := fun _ => none

/-- Present is what has no expiry or one that is still to come. -/
def Held.isPresent (held : Held) (now : Binary64) : Bool :=
  match held.expiresAt with
  | none => true
  | some instant => now.lt instant

def State.find? (m : State) (now : Binary64) (key : Key) : Option Held :=
  (m.held key.identity).filter (Held.isPresent · now)

def State.put (m : State) (key : Key) (held : Held) : State :=
  { m with held := fun identity => if identity = key.identity then some held else m.held identity }

def expiry (now ttl : Binary64) : Option Binary64 :=
  if Binary64.zero.lt ttl then some (now + ttl * 1000) else none

def require : StoreAction State Unit := do
  if ← Action.view State.initialized then return ()
  Action.fail (.uninitialized MemoryStore.storeName)

def look (now : Binary64) (key : Key) : StoreAction State (Option Held) :=
  Action.view fun m => m.find? now key

def write (now : Binary64) (key : Key) (value ttl : Value) : StoreAction State Unit := do
  let seconds ← Action.ofExcept ttl.asNumber
  Action.update fun m => m.put key ⟨value, expiry now seconds⟩

/-- Fails for options that cannot be written down, but is initialized all the same. -/
def start (options : MemoryStore.Options) : StoreAction State Value := do
  Action.update fun m => { m with initialized := true }
  let _ ← Action.ofExcept options.createsOnIncrement.asText
  let _ ← Action.ofExcept options.supportsTouch.asText
  return .undefined

def close : StoreAction State Value := do
  Action.update fun _ => {}
  return .undefined

def increment (options : MemoryStore.Options) (now : Binary64) (key : Key) :
    StoreAction State Value := do
  require
  match ← look now key with
  | none =>
    if options.createsOnIncrement.truthy then
      Action.update fun m => m.put key ⟨.number 1, none⟩
      return .number 1
    else
      return .null
  | some held =>
    let current ← Action.ofExcept held.value.asNumber
    if current.isInteger then
      Action.update fun m => m.put key ⟨.number (current + 1), held.expiresAt⟩
      return .number (current + 1)
    else
      let written ← Action.ofExcept key.value.asText
      Action.fail (.plain ("Value at " ++ written ++ " is not an integer"))

def addIfAbsent (now : Binary64) (key : Key) (value ttl : Value) : StoreAction State Value := do
  require
  match ← look now key with
  | some _ => return .bool false
  | none =>
    write now key value ttl
    return .bool true

def touch (options : MemoryStore.Options) (now : Binary64) (key : Key) (ttl : Value) :
    StoreAction State Value := do
  require
  if options.supportsTouch.truthy then
    match ← look now key with
    | none => return TouchResult.notFound.value
    | some held =>
      let seconds ← Action.ofExcept ttl.asNumber
      Action.update fun m => m.put key ⟨held.value, expiry now seconds⟩
      return TouchResult.touched.value
  else
    return TouchResult.unsupported.value

def set (now : Binary64) (key : Key) (value ttl : Value) : StoreAction State Value := do
  require
  write now key value ttl
  return .undefined

/-- The value of a key, null without one. A missing value reads as null. -/
def valueOf (held : Option Held) : Value := ((held.map Held.value).getD .null).orElse .null

def get (now : Binary64) (key : Key) : StoreAction State Value := do
  require
  return valueOf (← look now key)

def collect (now : Binary64) : List Key → StoreAction State (List (Key × Value))
  | [] => return []
  | key :: rest => do
    match ← look now key with
    | some held => return (key, held.value) :: (← collect now rest)
    | none => collect now rest

def getMulti (now : Binary64) (keys : Value) : StoreAction State Value := do
  require
  let items ← Action.ofExcept (keys.iterate "keys")
  return .table (Value.entriesOf (← collect now (items.filterMap Key.ofSimple?)))

def store (options : MemoryStore.Options) : CounterStore State := fun now call =>
  match call with
  | .start => start options
  | .close => close
  | .isInitialized => do return .bool (← Action.view State.initialized)
  | .increment key => increment options now key
  | .addIfAbsent key value ttl => addIfAbsent now key value ttl
  | .touch key ttl => touch options now key ttl
  | .set key value ttl => set now key value ttl
  | .get key => get now key
  | .getMulti keys => getMulti now keys

def remainingTtl (now : Binary64) (key : Key) : StoreAction State (Option Binary64) := do
  return (← look now key).bind fun held =>
    held.expiresAt.map fun instant => (instant - now) / 1000

theorem find?_put (m : State) (now : Binary64) (key other : Key) (held : Held) :
    (m.put key held).find? now other =
      if other.identity = key.identity then (some held).filter (Held.isPresent · now)
      else m.find? now other := by
  by_cases h : other.identity = key.identity
  · simp [State.find?, State.put, h]
  · simp [State.find?, State.put, h]

end ExpiringMap

namespace MemoryStore

theorem Entry.isExpired_later {entry : Entry} (hle : now.le later = true)
    (h : entry.isExpired now = true) : entry.isExpired later = true := by
  unfold isExpired at h ⊢
  cases he : entry.expiresAt with
  | none => simp [he] at h
  | some instant =>
    simp only [he] at h
    exact Binary64.le_trans h hle

theorem expiry_isNaN (hnow : now.BoundedBelow) (h : expiry now ttl = some instant) :
    instant.isNaN = false := by
  unfold expiry at h
  split at h
  · rename_i hpos
    cases h
    have hthousand : Binary64.zero.lt 1000 = true := by decide +kernel
    exact hnow.add (Binary64.boundedBelow_mul hpos hthousand)
  · cases h

-- ---------------------------------------------------------------------------
-- The relation
-- ---------------------------------------------------------------------------

def Entry.held (entry : Entry) : ExpiringMap.Held := ⟨entry.value, entry.expiresAt⟩

def Entry.Dated (entry : Entry) : Prop :=
  ∀ instant, entry.expiresAt = some instant → instant.isNaN = false

theorem isPresent_held {entry : Entry} (h : entry.Dated) (hnow : now.isNaN = false) :
    entry.held.isPresent now = !entry.isExpired now := by
  unfold ExpiringMap.Held.isPresent Entry.held Entry.isExpired
  cases he : entry.expiresAt with
  | none => rfl
  | some instant =>
    have hiff := Binary64.not_le (h instant he) hnow
    show now.lt instant = !instant.le now
    cases hle : instant.le now with
    | true =>
      rw [hle] at hiff
      simpa using hiff
    | false => exact hiff.mp hle

/-- From now on, the store and the map show the same. -/
structure Mirrors (now : Binary64) (s : State) (m : ExpiringMap.State) : Prop where
  clock : now.BoundedBelow
  initialized : s.initialized = m.initialized
  view : ∀ later key, now.le later = true → (s.live? later key).map Entry.held = m.find? later key

section
variable {now : Binary64} {s : State} {m : ExpiringMap.State}

theorem mirrors_empty (h : now.BoundedBelow) : Mirrors now {} {} := ⟨h, rfl, fun _ _ _ => rfl⟩

theorem Mirrors.mono (h : Mirrors now s m) (hle : now.le later = true) : Mirrors later s m :=
  ⟨h.clock.of_le hle, h.initialized, fun _ key hlater => h.view _ key (Binary64.le_trans hle hlater)⟩

theorem Mirrors.find? (h : Mirrors now s m) (key : Key) :
    m.find? now key = (s.live? now key).map Entry.held :=
  (h.view now key (Binary64.le_refl h.clock.isNaN)).symm

theorem Mirrors.dated (h : Mirrors now s m) (hentry : s.live? now key = some entry) :
    entry.Dated := by
  intro instant hinstant
  have hfind := h.find? key
  rw [hentry, ExpiringMap.State.find?] at hfind
  have hpresent := (Option.filter_eq_some_iff.mp hfind).2
  simp only [ExpiringMap.Held.isPresent, Entry.held, hinstant] at hpresent
  exact (Binary64.lt_iff.mp hpresent).2.1

theorem Mirrors.afterLook (h : Mirrors now s m) (key : Key) : Mirrors now (s.afterLook now key) m :=
  ⟨h.clock, by rw [afterLook_initialized, h.initialized], fun later other hle => by
    rw [live?_afterLook (fun _ => Entry.isExpired_later hle) s key other, h.view later other hle]⟩

theorem Mirrors.sweep (h : Mirrors now s m) : Mirrors now (s.sweep now) m :=
  ⟨h.clock, by rw [sweep_initialized, h.initialized], fun later other hle => by
    rw [live?_sweep (fun _ => Entry.isExpired_later hle) s other, h.view later other hle]⟩

theorem Mirrors.put (h : Mirrors now s m) (key : Key) (entry : Entry) (hdated : entry.Dated) :
    Mirrors now (s.put key entry) (m.put key entry.held) := by
  refine ⟨h.clock, h.initialized, ?_⟩
  intro later other hle
  rw [live?_put, ExpiringMap.find?_put]
  split
  · have hlater := (h.clock.of_le hle).isNaN
    simp only [Option.filter, isPresent_held hdated hlater]
    split <;> rfl
  · exact h.view later other hle

end

/-- A relation of the store to the map that lasts while the store drops what is expired and both
write the same. -/
structure Mirroring (now : Binary64) (R : State → ExpiringMap.State → Prop) : Prop where
  mirrors : ∀ {s m}, R s m → Mirrors now s m
  afterLook : ∀ {s m}, R s m → ∀ key, R (s.afterLook now key) m
  sweep : ∀ {s m}, R s m → R (s.sweep now) m
  put : ∀ {s m}, R s m → ∀ key entry, entry.Dated → R (s.put key entry) (m.put key entry.held)
  start : ∀ {s m}, R s m → R { s with initialized := true } { m with initialized := true }
  close : now.BoundedBelow → R {} {}

theorem mirroring_mirrors (now : Binary64) : Mirroring now (Mirrors now) where
  mirrors h := h
  afterLook := Mirrors.afterLook
  sweep := Mirrors.sweep
  put := Mirrors.put
  start h := ⟨h.clock, rfl, h.view⟩
  close := mirrors_empty

-- ---------------------------------------------------------------------------
-- The operations
-- ---------------------------------------------------------------------------

open SlidingTally.Action (Alike)

section
variable {now : Binary64} {R : State → ExpiringMap.State → Prop} {α : Type}

section
variable (hR : Mirroring now R)

include hR

theorem alike_require : Alike R require ExpiringMap.require := by
  refine Alike.bind (Alike.view fun s m h => (hR.mirrors h).initialized) ?_
  intro initialized
  cases initialized with
  | true => exact Alike.pure ()
  | false => exact Alike.fail _

theorem alike_look {f : Option Entry → StoreAction State α}
    {g : Option ExpiringMap.Held → StoreAction ExpiringMap.State α}
    (hnone : Alike R (f none) (g none))
    (hsome : ∀ entry, entry.Dated → Alike R (f (some entry)) (g (some entry.held))) :
    Alike R (look now key >>= f) (ExpiringMap.look now key >>= g) := by
  intro s m h
  have hmirrors := hR.mirrors h
  have hleft : look now key s = ⟨.ok (s.live? now key), s.afterLook now key, []⟩ := rfl
  have hright : ExpiringMap.look now key m = ⟨.ok (m.find? now key), m, []⟩ := rfl
  rw [Action.run_bind_ok hleft, Action.run_bind_ok hright, hmirrors.find? key]
  cases hentry : s.live? now key with
  | none => exact hnone _ _ (hR.afterLook h key)
  | some entry => exact hsome entry (hmirrors.dated hentry) _ _ (hR.afterLook h key)

theorem alike_put (entry : Entry) (hdated : entry.Dated) :
    Alike R (Action.update fun s => s.put key entry : StoreAction State Unit)
      (Action.update fun m => m.put key entry.held : StoreAction ExpiringMap.State Unit) :=
  Alike.update fun _ _ h => hR.put h key entry hdated

theorem alike_write : Alike R (write now key value ttl) (ExpiringMap.write now key value ttl) := by
  intro s m h
  have hsweep : (Action.update fun s => s.sweep now : StoreAction State Unit) s =
      ⟨.ok (), s.sweep now, []⟩ := rfl
  unfold write
  rw [Action.run_bind_ok hsweep]
  refine Alike.bind (Alike.ofExcept _) (fun seconds => ?_) (s.sweep now) m (hR.sweep h)
  refine Alike.update fun s m h => hR.put h key ⟨key.inTable, value, expiry now seconds⟩ ?_
  exact fun instant hinstant => expiry_isNaN (hR.mirrors h).clock hinstant

theorem alike_start (options : Options) : Alike R (start options) (ExpiringMap.start options) := by
  refine Alike.bind (Alike.update fun s m h => hR.start h) fun _ => ?_
  refine Alike.bind (Alike.ofExcept _) fun creates => Alike.bind (Alike.ofExcept _) fun touches => ?_
  intro s m h
  exact ⟨rfl, h⟩

theorem alike_close (hnow : now.BoundedBelow) : Alike R close ExpiringMap.close :=
  Alike.bind (Alike.update fun _ _ _ => hR.close hnow) fun _ => Alike.pure _

theorem alike_increment (options : Options) (key : Key) :
    Alike R (increment options now key) (ExpiringMap.increment options now key) := by
  refine Alike.bind (alike_require hR) fun _ => alike_look hR ?_ fun entry hdated => ?_
  · dsimp only
    split
    · refine Alike.bind (Alike.update fun s m h => ?_) fun _ => Alike.pure _
      exact hR.put (hR.sweep h) key ⟨key.inTable, .number 1, none⟩ fun _ hinstant => by
        cases hinstant
    · exact Alike.pure _
  · refine Alike.bind (Alike.ofExcept _) fun current => ?_
    split
    · exact Alike.bind (alike_put hR { entry with value := .number (current + 1) } hdated)
        fun _ => Alike.pure _
    · exact Alike.bind (Alike.ofExcept _) fun written => Alike.fail _

theorem alike_addIfAbsent (key : Key) (value ttl : Value) :
    Alike R (addIfAbsent now key value ttl) (ExpiringMap.addIfAbsent now key value ttl) := by
  refine Alike.bind (alike_require hR) fun _ => alike_look hR ?_ fun entry hdated => ?_
  · exact Alike.bind (alike_write hR) fun _ => Alike.pure _
  · exact Alike.pure _

theorem alike_touch (options : Options) (key : Key) (ttl : Value) :
    Alike R (touch options now key ttl) (ExpiringMap.touch options now key ttl) := by
  refine Alike.bind (alike_require hR) fun _ => ?_
  split
  · refine alike_look hR (Alike.pure _) fun entry hdated => ?_
    refine Alike.bind (Alike.ofExcept _) fun seconds => ?_
    refine Alike.bind (Alike.update fun s m h => ?_) fun _ => Alike.pure _
    apply hR.put h key { entry with expiresAt := expiry now seconds }
    exact fun instant hinstant => expiry_isNaN (hR.mirrors h).clock hinstant
  · exact Alike.pure _

theorem alike_set (key : Key) (value ttl : Value) :
    Alike R (set now key value ttl) (ExpiringMap.set now key value ttl) :=
  Alike.bind (alike_require hR) fun _ => Alike.bind (alike_write hR) fun _ => Alike.pure _

theorem alike_get (key : Key) : Alike R (get now key) (ExpiringMap.get now key) :=
  Alike.bind (alike_require hR) fun _ => alike_look hR (Alike.pure _) fun _ _ => Alike.pure _

theorem alike_collect (keys : List Key) :
    Alike R (collect now keys) (ExpiringMap.collect now keys) := by
  induction keys with
  | nil => exact Alike.pure _
  | cons key rest ih =>
    refine alike_look hR ih fun entry _ => ?_
    exact Alike.bind ih fun found => Alike.pure _

theorem alike_getMulti (keys : Value) :
    Alike R (getMulti now keys) (ExpiringMap.getMulti now keys) := by
  refine Alike.bind (alike_require hR) fun _ => Alike.bind (Alike.ofExcept _) fun items => ?_
  exact Alike.bind (alike_collect hR _) fun found => Alike.pure _

theorem Mirroring.alike_call (options : Options) (call : StoreCall) :
    Alike R (store options now call) (ExpiringMap.store options now call) := by
  cases call with
  | start => exact alike_start hR options
  | close => exact fun s m h => alike_close hR (hR.mirrors h).clock s m h
  | isInitialized =>
    exact Alike.bind (Alike.view fun s m h => (hR.mirrors h).initialized) fun _ => Alike.pure _
  | increment key => exact alike_increment hR options key
  | addIfAbsent key value ttl => exact alike_addIfAbsent hR key value ttl
  | touch key ttl => exact alike_touch hR options key ttl
  | set key value ttl => exact alike_set hR key value ttl
  | get key => exact alike_get hR key
  | getMulti keys => exact alike_getMulti hR keys

end

theorem alike_remainingTtl (key : Key) :
    Alike (Mirrors now) (remainingTtl now key) (ExpiringMap.remainingTtl now key) :=
  alike_look (mirroring_mirrors now) (Alike.pure _) fun _ _ => Alike.pure _

theorem alike_store (options : Options) (call : StoreCall) :
    Alike (Mirrors now) (store options now call) (ExpiringMap.store options now call) :=
  (mirroring_mirrors now).alike_call options call

end

-- ---------------------------------------------------------------------------
-- Runs
-- ---------------------------------------------------------------------------

inductive Operation where
  | call (call : StoreCall)
  | remainingTtl (key : Key)

inductive Shown where
  | value (value : Value)
  | remaining (seconds : Option Binary64)

def perform (options : Options) : Binary64 × Operation → StoreAction State Shown
  | (now, .call call) => Shown.value <$> store options now call
  | (now, .remainingTtl key) => Shown.remaining <$> remainingTtl now key

def performIdeal (options : Options) : Binary64 × Operation → StoreAction ExpiringMap.State Shown
  | (now, .call call) => Shown.value <$> ExpiringMap.store options now call
  | (now, .remainingTtl key) => Shown.remaining <$> ExpiringMap.remainingTtl now key

theorem alike_perform (options : Options) (step : Binary64 × Operation) :
    Alike (Mirrors step.1) (perform options step) (performIdeal options step) := by
  obtain ⟨now, operation⟩ := step
  cases operation with
  | call call => exact (alike_store options call).map _
  | remainingTtl key => exact (alike_remainingTtl key).map _

theorem replies_eq_expiringMap (options : Options) (start : Binary64)
    (hstart : start.isFinite = true) (operations : List (Binary64 × Operation))
    (hrising : Action.Rising Prod.fst start operations) :
    Action.replies (perform options) {} operations =
      Action.replies (performIdeal options) {} operations :=
  Alike.replies (fun _ _ _ _ hle h => h.mono hle) (alike_perform options) operations start {} {}
    (mirrors_empty (Binary64.boundedBelow_of_isFinite hstart)) hrising

/-- A key that is there for a second, so that the first of two reads finds it, and is swept with the
next write. -/
theorem replies_eq_expiringMap_second :
    let operations : List (Binary64 × Operation) :=
      [(0, .call .start), (0, .call (.set (.text "a") (.number 7) (.number 1))),
        (999, .call (.getMulti (.list [.text "a", .text "b"]))), (1000, .call (.get (.text "a"))),
        (70000, .call (.set (.text "b") (.number 8) .null)), (70000, .remainingTtl (.text "b"))]
    let shown : List (Except Fault Shown) :=
      [.ok (.value .undefined), .ok (.value .undefined),
        .ok (.value (.table [(.text "a", .number 7)])), .ok (.value .null),
        .ok (.value .undefined), .ok (.remaining none)]
    Action.replies (performIdeal {}) {} operations = shown ∧
      Action.replies (perform {}) {} operations = shown := by
  intro operations shown
  let started : ExpiringMap.State := { initialized := true }
  let second : ExpiringMap.State := started.put (.text "a") ⟨.number 7, some 1000⟩
  have hstart : performIdeal {} (0, .call .start) {} = ⟨.ok (.value .undefined), started, []⟩ := rfl
  have hset : performIdeal {} (0, .call (.set (.text "a") (.number 7) (.number 1))) started =
      ⟨.ok (.value .undefined), second, []⟩ := by
    have hexpiry : ExpiringMap.expiry 0 1 = some 1000 := by decide +kernel
    simp only [second, ← hexpiry]
    rfl
  have hbatch : performIdeal {} (999, .call (.getMulti (.list [.text "a", .text "b"]))) second =
      ⟨.ok (.value (.table [(.text "a", .number 7)])), second, []⟩ := by
    have hlt : Binary64.lt 999 1000 = true := by decide +kernel
    have hfound : second.find? 999 (.text "a") = some ⟨.number 7, some 1000⟩ := by
      simp [second, ExpiringMap.find?_put, ExpiringMap.Held.isPresent, hlt]
    have hnone : second.find? 999 (.text "b") = none := rfl
    have hcollect : ExpiringMap.collect 999 [.text "a", .text "b"] second =
        ⟨.ok [(.text "a", .number 7)], second, []⟩ := by
      simp [ExpiringMap.collect, ExpiringMap.look, Action.run_bind, hfound, hnone]
    have hkeys : (Action.ofExcept ((Value.list [.text "a", .text "b"]).iterate "keys") :
        StoreAction _ _) second = ⟨.ok [.text "a", .text "b"], second, []⟩ := rfl
    have hrequire : ExpiringMap.require second = ⟨.ok (), second, []⟩ := rfl
    simp only [performIdeal, ExpiringMap.store, ExpiringMap.getMulti, map_eq_pure_bind, bind_assoc]
    rw [Action.run_bind_quiet hrequire, Action.run_bind_quiet hkeys]
    exact (Action.run_bind_quiet hcollect _).trans rfl
  have hget : performIdeal {} (1000, .call (.get (.text "a"))) second =
      ⟨.ok (.value .null), second, []⟩ := by
    have hnot : Binary64.lt 1000 1000 = false := by decide +kernel
    have hnone : second.find? 1000 (.text "a") = none := by
      simp [second, ExpiringMap.find?_put, ExpiringMap.Held.isPresent, hnot]
    show Outcome.mk (.ok (Shown.value (ExpiringMap.valueOf (second.find? 1000 (.text "a"))))) second [] = _
    rw [hnone]
    rfl
  have hideal : Action.replies (performIdeal {}) {} operations = shown := by
    simp only [operations, Action.replies_cons, hstart, hset, hbatch, hget]
    rfl
  have heq := replies_eq_expiringMap {} 0 (by decide +kernel) operations
    ⟨by decide +kernel, by decide +kernel, by decide +kernel, by decide +kernel,
      by decide +kernel, by decide +kernel, trivial⟩
  exact ⟨hideal, heq.trans hideal⟩

end MemoryStore

theorem start_state (options : MemoryStore.Options) :
    (MemoryStore.start options {}).state = { initialized := true } := by
  unfold MemoryStore.start
  simp only [Action.run_bind, Action.run_update]
  cases options.createsOnIncrement.asText with
  | error fault => rfl
  | ok creates => cases options.supportsTouch.asText <;> rfl

end SlidingTally
