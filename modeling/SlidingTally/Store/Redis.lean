import SlidingTally.Store

/-!
# The Redis store

A counter store over a Redis client. `RedisStore.Client` is any client: it answers the
commands of `Command` on a state of its own or fails them. INCR creates an absent key
without expiry, so whoever increments a key to one has to touch it. A cluster client reads
many keys one by one, since their slots differ, and loses only the keys whose reads fail.
-/

namespace SlidingTally.RedisStore

/-- A command to the client. An expiry is in milliseconds. -/
inductive Command where
  | connect
  | ping
  | quit
  | disconnect
  | onError
  | incr (key : String)
  | set (key : String) (value : Value) (expiry : Option Binary64) (onlyIfAbsent : Bool)
  | pexpire (key : String) (milliseconds : Binary64)
  | get (key : String)
  /-- Reads many keys, which are a list of texts. -/
  | mget (keys : Value)

def Command.isData : Command → Bool
  | .incr _ => true
  | .set _ _ _ _ => true
  | .pexpire _ _ => true
  | .get _ => true
  | .mget _ => true
  | _ => false

/-- Any client behaviour over a state of type `κ`, given the clock reading. -/
structure Client (κ : Type) where
  isCluster : Bool
  /-- The client's connection status; `wait` means that it has not been asked to connect. -/
  status : κ → String
  send : Binary64 → Command → κ → Except Fault Value × κ

structure Settings where
  keyScope : Value := .text "velocity:"

def Settings.fullKey (settings : Settings) (key : Value) : Except Fault String := do
  return (← settings.keyScope.asText) ++ (← key.asText)

structure State (κ : Type) where
  initialized : Bool := false
  client : κ

def storeName : String := Component.name .redisStore

variable {κ : Type}

-- ---------------------------------------------------------------------------
-- Commands
-- ---------------------------------------------------------------------------

def send (client : Client κ) (now : Binary64) (command : Command) :
    StoreAction (State κ) Value := fun s =>
  let (reply, after) := client.send now command s.client
  ⟨reply, { s with client := after }, []⟩

def call (client : Client κ) (now : Binary64) (operation : String)
    (command : Except Fault Command) : StoreAction (State κ) Value :=
  (do send client now (← Action.ofExcept command)).mapFault (Fault.ofClient operation)

def require : StoreAction (State κ) Unit := do
  if ← Action.view State.initialized then return ()
  Action.fail (.uninitialized storeName)

/-- A time to live in whole milliseconds, rounded up and at least one. -/
def milliseconds (ttl : Binary64) : Binary64 := Binary64.max 1 (ttl * 1000).ceil

-- ---------------------------------------------------------------------------
-- Life cycle
-- ---------------------------------------------------------------------------

def subscribe (client : Client κ) (now : Binary64) : StoreAction (State κ) Unit := do
  let _ ← send client now .onError
  return ()

def clientError (fault : Fault) : Except Fault LogLine := do
  return ⟨.error, .redisStore, "Redis client error: " ++ (← fault.describe)⟩

def connect (client : Client κ) (now : Binary64) : StoreAction (State κ) Unit := do
  if (← Action.view fun s => client.status s.client) = "wait" then
    let _ ← send client now .connect
  let _ ← send client now .ping
  return ()

/-- Connects. A client that does not answer is disconnected. -/
def start (client : Client κ) (settings : Settings) (now : Binary64) :
    StoreAction (State κ) Value := do
  match ← Action.attempt (connect client now) with
  | .ok _ =>
    Action.update fun s => { s with initialized := true }
    Action.record ⟨.log, .redisStore, "Initialized RedisCounterStoreAdapter with prefix: " ++
      (← Action.ofExcept settings.keyScope.asText)⟩
    return .undefined
  | .error fault =>
    let _ ← send client now .disconnect
    Action.fail fault

def close (client : Client κ) (now : Binary64) : StoreAction (State κ) Value := do
  if ← Action.view State.initialized then
    Action.update fun s => { s with initialized := false }
    let _ ← send client now .quit
  else
    let _ ← send client now .disconnect
  return .undefined

-- ---------------------------------------------------------------------------
-- Reading many keys
-- ---------------------------------------------------------------------------

def present (replies : List (Key × Value)) : List (Value × Value) :=
  Value.entriesOf (replies.filter fun entry => !entry.2.isNull)

def readEach (client : Client κ) (settings : Settings) (now : Binary64) :
    List Value → StoreAction (State κ) (List (Except Fault Value))
  | [] => return []
  | key :: rest => do
    let fullKey ← Action.ofExcept (settings.fullKey key)
    let reply ← Action.attempt (send client now (.get fullKey))
    return reply :: (← readEach client settings now rest)

def settled : Except Fault Value → Value
  | .ok value => value
  | .error _ => .null

def noKeyList : Fault := .wrongType "keys.map is not a function"

/-- Reads keys one by one. Keys that are octets are read, but the replies do not fit into
octets and count as zero. -/
def getMultiCluster (client : Client κ) (settings : Settings) (now : Binary64) (keys : Value) :
    StoreAction (State κ) Value := do
  match keys with
  | .list keys => gather keys
  | .bytes octets =>
    let numbers := octets.map Value.ofOctet
    let _ ← readEach client settings now numbers
    return .table (present (numbers.map fun key => (⟨key, 0⟩, .number .zero)))
  | _ => Action.fail noKeyList
where
  gather (keys : List Value) : StoreAction (State κ) Value := do
    let replies ← readEach client settings now keys
    let failures := replies.countP fun reply => !reply.toBool
    if failures = keys.length then
      Action.fail (.transient s!"GET failed on every cluster node for {keys.length} keys" none)
    else
      if 0 < failures then
        Action.record ⟨.warn, .redisStore,
          s!"{failures} of {keys.length} cluster reads failed, treating them as missing"⟩
      return .table (present ((Key.ofEach keys).zip (replies.map settled)))

/-- The key that a place in a reply belongs to: its position, or what is written like one.
The place that is named for the length has the number of keys. -/
def keyAt (keys : List Key) (place : Value) : Except Fault Key := do
  let text ← place.asText
  if text = "length" then return ⟨.number (.ofNat keys.length), 0⟩
  let position := (List.range keys.length).find? fun position => toString position = text
  return (position.bind (keys[·]?)).getD ⟨.undefined, 0⟩

def withKeys (keys : List Key) (reply : Value) : Except Fault (List (Key × Value)) :=
  match reply with
  | .list values => .ok (padded keys values)
  | .bytes octets => .ok (padded keys (octets.map Value.ofOctet))
  | .table entries =>
    (entries.filter fun entry => !entry.2.isNull).mapM fun entry => do
      return (← keyAt keys entry.1, entry.2)
  | .undefined => .error (Value.noProperty "undefined" "forEach")
  | .null => .error (Value.noProperty "null" "forEach")
  | _ => .error (.wrongType "values.forEach is not a function")
where
  /-- Values behind the last key belong to none. -/
  padded (keys : List Key) (values : List Value) : List (Key × Value) :=
    (keys ++ List.replicate (values.length - keys.length) (⟨.undefined, 0⟩ : Key)).zip values

/-- Keys with the scope in front of each. Octets stay octets: each becomes that of the number
which is then written. -/
def fullKeys (settings : Settings) (keys : Value) : Except Fault Value :=
  match keys with
  | .list keys => do return .list ((← keys.mapM settings.fullKey).map .text)
  | .bytes octets => do
    let texts ← octets.mapM fun octet => settings.fullKey (Value.ofOctet octet)
    return .bytes (texts.map fun text => (Numeral.read text).toOctet)
  | _ => .error noKeyList

def getMultiSingle (client : Client κ) (settings : Settings) (now : Binary64) (keys : Value) :
    StoreAction (State κ) Value := do
  let reply ← call client now "MGET" ((fullKeys settings keys).map .mget)
  let found ← Action.ofExcept (withKeys (Key.ofEach (keys.items?.getD [])) reply)
  return .table (present found)

def getMulti (client : Client κ) (settings : Settings) (now : Binary64) (keys : Value) :
    StoreAction (State κ) Value := do
  require
  if (← Action.ofExcept keys.lengthOf).isNumber .zero then return .table []
  if client.isCluster then getMultiCluster client settings now keys
  else getMultiSingle client settings now keys

-- ---------------------------------------------------------------------------
-- Single keys
-- ---------------------------------------------------------------------------

def addIfAbsent (client : Client κ) (settings : Settings) (now : Binary64)
    (key value ttl : Value) : StoreAction (State κ) Value := do
  require
  let reply ← call client now "SET NX" do
    return .set (← settings.fullKey key) value (some (milliseconds (← ttl.asNumber))) true
  return .bool (reply.text? == some "OK")

def touch (client : Client κ) (settings : Settings) (now : Binary64) (key ttl : Value) :
    StoreAction (State κ) Value := do
  require
  let updated ← call client now "PEXPIRE" do
    return .pexpire (← settings.fullKey key) (milliseconds (← ttl.asNumber))
  return (if updated.isNumber 1 then TouchResult.touched else TouchResult.notFound).value

def set (client : Client κ) (settings : Settings) (now : Binary64) (key value ttl : Value) :
    StoreAction (State κ) Value := do
  require
  let key ← Action.ofExcept (settings.fullKey key)
  let seconds ← Action.ofExcept ttl.asNumber
  let expiry := if Binary64.zero.lt seconds then some (milliseconds seconds) else none
  let _ ← call client now "SET" (.ok (.set key value expiry false))
  return .undefined

def store (client : Client κ) (settings : Settings) : CounterStore (State κ) := fun now request =>
  match request with
  | .start => start client settings now
  | .close => close client now
  | .isInitialized => do return .bool (← Action.view State.initialized)
  | .increment key => do
    require
    call client now "INCR" ((settings.fullKey key.value).map .incr)
  | .addIfAbsent key value ttl => addIfAbsent client settings now key.value value ttl
  | .touch key ttl => touch client settings now key.value ttl
  | .set key value ttl => set client settings now key.value value ttl
  | .get key => do
    require
    call client now "GET" ((settings.fullKey key.value).map .get)
  | .getMulti keys => getMulti client settings now keys

end SlidingTally.RedisStore
