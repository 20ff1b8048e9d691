import SlidingTally.Store
import SlidingTally.Table

/-!
# The in-memory store

A table of entries, each with an expiry or none. Expired entries are dropped when they are
looked at, and all of them at most once a minute when a key is written. `live?` is the
view that ignores when an entry is dropped: a key counts as present as long as it is stored
and not expired. `MemoryStore.store` answers the calls; `remainingTtl` and `size` look at
the entries themselves.
-/

namespace SlidingTally.MemoryStore

/-- Two ways in which other stores differ: whether an increment creates an absent key, and
whether a time to live can be refreshed. Each is a switch that counts as on if it is truthy. -/
structure Options where
  createsOnIncrement : Value := .bool true
  supportsTouch : Value := .bool true

structure Entry where
  /-- The value that the entry is stored under. -/
  key : Value
  value : Value
  /-- Epoch milliseconds, none for no expiry. -/
  expiresAt : Option Binary64

structure State where
  initialized : Bool := false
  entries : Table Key.Identity Entry := .empty
  lastSweepAt : Binary64 := .zero

def sweepInterval : Binary64 := 60000

def storeName : String := Component.name .memoryStore

-- ---------------------------------------------------------------------------
-- Expiry
-- ---------------------------------------------------------------------------

/-- An entry is expired from the instant of its expiry on. -/
def Entry.isExpired (entry : Entry) (now : Binary64) : Bool :=
  match entry.expiresAt with
  | some instant => instant.le now
  | none => false

/-- When a key written now expires; without a positive time to live it does not. -/
def expiry (now ttl : Binary64) : Option Binary64 :=
  if Binary64.zero.lt ttl then some (now + ttl * 1000) else none

def State.stored? (s : State) (key : Key) : Option Entry := s.entries.get? key.identity

def State.live? (s : State) (now : Binary64) (key : Key) : Option Entry :=
  (s.stored? key).filter fun entry => !entry.isExpired now

def State.drop (s : State) (key : Key) : State :=
  { s with entries := s.entries.erase key.identity }

/-- The state after a key was looked at: an expired entry is dropped. -/
def State.afterLook (s : State) (now : Binary64) (key : Key) : State :=
  match s.stored? key with
  | some entry => if entry.isExpired now then s.drop key else s
  | none => s

/-- Drops every expired entry, unless the last time was less than the interval ago. -/
def State.sweep (s : State) (now : Binary64) : State :=
  if (now - s.lastSweepAt).lt sweepInterval then s
  else { s with
    entries := s.entries.filter fun entry => !entry.2.isExpired now
    lastSweepAt := now }

def State.put (s : State) (key : Key) (entry : Entry) : State :=
  { s with entries := s.entries.insert key.identity entry }

-- ---------------------------------------------------------------------------
-- Operations
-- ---------------------------------------------------------------------------

def require : StoreAction State Unit := do
  if ← Action.view State.initialized then return ()
  Action.fail (.uninitialized storeName)

def look (now : Binary64) (key : Key) : StoreAction State (Option Entry) := fun s =>
  ⟨.ok (s.live? now key), s.afterLook now key, []⟩

def write (now : Binary64) (key : Key) (value ttl : Value) : StoreAction State Unit := do
  Action.update fun s => s.sweep now
  let seconds ← Action.ofExcept ttl.asNumber
  Action.update fun s => s.put key ⟨key.inTable, value, expiry now seconds⟩

def start (options : Options) : StoreAction State Value := do
  Action.update fun s => { s with initialized := true }
  let creates ← Action.ofExcept options.createsOnIncrement.asText
  let touches ← Action.ofExcept options.supportsTouch.asText
  Action.record ⟨.log, .memoryStore, "Initialized MemoryCounterStoreAdapter (createOnIncrement=" ++
    creates ++ ", touch=" ++ touches ++ ")"⟩
  return .undefined

def close : StoreAction State Value := do
  Action.update fun _ => {}
  return .undefined

def increment (options : Options) (now : Binary64) (key : Key) : StoreAction State Value := do
  require
  match ← look now key with
  | none =>
    if options.createsOnIncrement.truthy then
      Action.update fun s => (s.sweep now).put key ⟨key.inTable, .number 1, none⟩
      return .number 1
    else
      return .null
  | some entry =>
    let current ← Action.ofExcept entry.value.asNumber
    if current.isInteger then
      let next := current + 1
      Action.update fun s => s.put key { entry with value := .number next }
      return .number next
    else
      let written ← Action.ofExcept key.value.asText
      Action.fail (.plain ("Value at " ++ written ++ " is not an integer"))

def addIfAbsent (now : Binary64) (key : Key) (value ttl : Value) : StoreAction State Value := do
  require
  match ← look now key with
  | some _ => return .bool false
  | none =>
    write now key value ttl
    return .bool true

def touch (options : Options) (now : Binary64) (key : Key) (ttl : Value) :
    StoreAction State Value := do
  require
  if options.supportsTouch.truthy then
    match ← look now key with
    | none => return TouchResult.notFound.value
    | some entry =>
      let seconds ← Action.ofExcept ttl.asNumber
      Action.update fun s => s.put key { entry with expiresAt := expiry now seconds }
      return TouchResult.touched.value
  else
    return TouchResult.unsupported.value

def set (now : Binary64) (key : Key) (value ttl : Value) : StoreAction State Value := do
  require
  write now key value ttl
  return .undefined

/-- The value of an entry, null without one. A missing value reads as null. -/
def valueOf (entry : Option Entry) : Value :=
  ((entry.map Entry.value).getD .null).orElse .null

def get (now : Binary64) (key : Key) : StoreAction State Value := do
  require
  return valueOf (← look now key)

def collect (now : Binary64) : List Key → StoreAction State (List (Key × Value))
  | [] => return []
  | key :: rest => do
    match ← look now key with
    | some entry => return (key, entry.value) :: (← collect now rest)
    | none => collect now rest

/-- Looks up the items of a value. One with parts is no key that anything was written under. -/
def getMulti (now : Binary64) (keys : Value) : StoreAction State Value := do
  require
  let items ← Action.ofExcept (keys.iterate "keys")
  return .table (Value.entriesOf (← collect now (items.filterMap Key.ofSimple?)))

def store (options : Options) : CounterStore State := fun now call =>
  match call with
  | .start => start options
  | .close => close
  | .isInitialized => do return .bool (← Action.view State.initialized)
  | .increment key => increment options now key
  | .addIfAbsent key value ttl => addIfAbsent now key value ttl
  | .touch key ttl => touch options now key ttl
  | .set key value ttl => set now key value ttl
  | .get key => get now key
  | .getMulti keys => getMulti now keys

-- ---------------------------------------------------------------------------
-- Inspection
-- ---------------------------------------------------------------------------

def remainingTtl (now : Binary64) (key : Key) : StoreAction State (Option Binary64) := do
  return (← look now key).bind fun entry =>
    entry.expiresAt.map fun instant => (instant - now) / 1000

/-- The number of entries, with expired ones that are not dropped yet. -/
def State.size (s : State) : Nat := s.entries.size

end SlidingTally.MemoryStore
