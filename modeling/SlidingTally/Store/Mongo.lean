import SlidingTally.Store

/-!
# The MongoDB store

A counter store over a document model. Each key is one document, and the database removes
documents some time after their expiry, so reads leave out documents past it.
`MongoStore.Client` is any model: it answers the commands of `Command` or fails them.
-/

namespace SlidingTally.MongoStore

inductive KeyFilter where
  | one (key : Value)
  | among (keys : Value)

/-- Which documents a command applies to: by key and, where an instant is given, only those
without expiry or with an expiry after it. -/
structure Filter where
  keys : KeyFilter
  liveAt : Option Instant := none

/-- What an update sets; `value` is left alone where there is none. -/
structure Change where
  value : Option Value := none
  /-- The new expiry, none for no expiry. -/
  expiresAt : Option Instant

/-- A command to the model; `timeout` bounds its time in milliseconds. A document is a record
with its key under `_id` and its value under `value`. -/
inductive Command where
  /-- Defines the model on the connection. -/
  | defineModel (collection : Value)
  /-- Has the database remove documents past their expiry. -/
  | createIndex
  /-- Adds one to the value of a document and replies with the document after it. -/
  | findOneAndIncrement (filter : Filter) (timeout : Value)
  | create (key value : Value) (expiresAt : Option Instant)
  /-- Replies with a record that says under `matchedCount` how many documents it applied to. -/
  | updateOne (filter : Filter) (change : Change) (upsert : Bool) (timeout : Value)
  /-- Replies with a document or null. -/
  | findOne (filter : Filter) (timeout : Value)
  /-- Replies with a list of documents. -/
  | find (filter : Filter) (timeout : Value)

/-- Any model behaviour over a state of type `κ`, given the clock reading. -/
structure Client (κ : Type) where
  collection : String
  send : Binary64 → Command → κ → Except Fault Value × κ

/-- Where the model comes from: nowhere, a connection on which it is to be defined, or one
that has it. -/
inductive Connection where
  | none
  | fresh
  | existing
deriving DecidableEq

structure Settings where
  collection : Value := .text "velocity_counters"
  timeout : Value := .number 250

structure State (κ : Type) where
  initialized : Bool := false
  hasModel : Bool := false
  client : κ

def storeName : String := Component.name .mongoStore

def duplicateKey : Binary64 := 11000

variable {κ : Type}

-- ---------------------------------------------------------------------------
-- Commands
-- ---------------------------------------------------------------------------

def send (client : Client κ) (now : Binary64) (command : Command) :
    StoreAction (State κ) Value := fun s =>
  let (reply, after) := client.send now command s.client
  ⟨reply, { s with client := after }, []⟩

def call (client : Client κ) (now : Binary64) (operation : String)
    (command : Except Fault Command) : StoreAction (State κ) Value :=
  (do send client now (← Action.ofExcept command)).mapFault (Fault.ofClient operation)

def require : StoreAction (State κ) Unit := do
  if ← Action.view fun s => s.initialized && s.hasModel then return ()
  Action.fail (.uninitialized storeName)

def expiry (now ttl : Binary64) : Option Instant :=
  if Binary64.zero.lt ttl then some (.ofNumber (now + ttl * 1000)) else none

def live (now : Binary64) (keys : KeyFilter) : Filter := ⟨keys, some (.ofNumber now)⟩

-- ---------------------------------------------------------------------------
-- Life cycle
-- ---------------------------------------------------------------------------

def attach (client : Client κ) (settings : Settings) (connection : Connection) (now : Binary64) :
    StoreAction (State κ) Unit := do
  match connection with
  | .none =>
    Action.record ⟨.warn, .mongoStore, "Cannot initialize counter model without connection"⟩
  | .fresh =>
    let _ ← send client now (.defineModel settings.collection)
    Action.update fun s => { s with hasModel := true }
  | .existing => Action.update fun s => { s with hasModel := true }

def start (client : Client κ) (now : Binary64) : StoreAction (State κ) Value := do
  if ← Action.view State.hasModel then
    let _ ← send client now .createIndex
    Action.update fun s => { s with initialized := true }
    Action.record ⟨.log, .mongoStore,
      "Initialized MongoCounterStoreAdapter on collection " ++ client.collection⟩
    return .undefined
  else
    let reason :=
      "MongoCounterStoreAdapter failed to initialize: No model or connection provided"
    Action.record ⟨.error, .mongoStore, reason⟩
    Action.fail (.plain reason)

/-- The connection belongs to whoever opened it and stays open. -/
def close : StoreAction (State κ) Value := do
  Action.update fun s => { s with initialized := false }
  return .undefined

-- ---------------------------------------------------------------------------
-- Data
-- ---------------------------------------------------------------------------

def increment (client : Client κ) (settings : Settings) (now : Binary64) (key : Value) :
    StoreAction (State κ) Value := do
  require
  let document ← call client now "findOneAndUpdate"
    (.ok (.findOneAndIncrement ⟨.one key, none⟩ settings.timeout))
  if document.truthy then
    return .number (← Action.ofExcept (document.field "value").asNumber)
  else return .null

def isDuplicate : Fault → Bool
  | .server _ code => code.isNumber duplicateKey
  | _ => false

def addIfAbsent (client : Client κ) (now : Binary64) (key value ttl : Value) :
    StoreAction (State κ) Value := do
  require
  match ← Action.attempt create with
  | .ok _ => return .bool true
  | .error fault =>
    if isDuplicate fault then return .bool false
    Action.fail (Fault.because "insert failed: " fault)
where
  create : StoreAction (State κ) Value := do
    send client now (.create key value (expiry now (← Action.ofExcept ttl.asNumber)))

def update (client : Client κ) (settings : Settings) (now : Binary64) (key : Value)
    (value : Option Value) (ttl : Value) (upsert : Bool) : StoreAction (State κ) Value :=
  call client now "updateOne" do
    return .updateOne ⟨.one key, none⟩ ⟨value, expiry now (← ttl.asNumber)⟩ upsert settings.timeout

def touch (client : Client κ) (settings : Settings) (now : Binary64) (key ttl : Value) :
    StoreAction (State κ) Value := do
  require
  let result ← update client settings now key none ttl false
  let matched ← Action.ofExcept do (← result.property "matchedCount").asNumber
  return (if Binary64.zero.lt matched then TouchResult.touched else TouchResult.notFound).value

def set (client : Client κ) (settings : Settings) (now : Binary64) (key value ttl : Value) :
    StoreAction (State κ) Value := do
  require
  let _ ← update client settings now key (some value) ttl true
  return .undefined

def get (client : Client κ) (settings : Settings) (now : Binary64) (key : Value) :
    StoreAction (State κ) Value := do
  require
  let document ← call client now "findOne"
    (.ok (.findOne (live now (.one key)) settings.timeout))
  return if document.truthy then document.field "value" else .null

def entriesOf (documents : List Value) : Except Fault (List (Key × Value)) := do
  let ids ← documents.mapM fun document => document.property "_id"
  return (Key.ofEach ids).zip (documents.map fun document => document.field "value")

def getMulti (client : Client κ) (settings : Settings) (now : Binary64) (keys : Value) :
    StoreAction (State κ) Value := do
  require
  if (← Action.ofExcept keys.lengthOf).isNumber .zero then return .table []
  let documents ← call client now "find"
    (.ok (.find (live now (.among keys)) settings.timeout))
  let entries ← Action.ofExcept do entriesOf (← documents.iterate "records")
  return .table (Value.entriesOf entries)

def store (client : Client κ) (settings : Settings) : CounterStore (State κ) := fun now request =>
  match request with
  | .start => start client now
  | .close => close
  | .isInitialized => do return .bool (← Action.view State.initialized)
  | .increment key => increment client settings now key.value
  | .addIfAbsent key value ttl => addIfAbsent client now key.value value ttl
  | .touch key ttl => touch client settings now key.value ttl
  | .set key value ttl => set client settings now key.value value ttl
  | .get key => get client settings now key.value
  | .getMulti keys => getMulti client settings now keys

end SlidingTally.MongoStore
