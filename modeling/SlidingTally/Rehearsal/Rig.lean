import SlidingTally.Config.Selection
import SlidingTally.Rehearsal.Stores
import SlidingTally.Store.Inert

/-!
# Rigs

A `Rig` is a store together with what a session does to it besides calling it: extending
its script, looking at the commands it sent, and peeking into the in-memory one. There is
one for each scripted collaborator, and one for the in-memory store by itself.
-/

namespace SlidingTally.Rehearsal

-- ---------------------------------------------------------------------------
-- Calls
-- ---------------------------------------------------------------------------

inductive Call where
  | store (call : StoreCall)
  | redis (command : RedisStore.Command)
  | mongo (command : MongoStore.Command)

-- ---------------------------------------------------------------------------
-- Collaborators
-- ---------------------------------------------------------------------------

/-- A store with what a session does to it besides calling it. -/
structure Rig (σ : Type) where
  store : CounterStore σ
  /-- The store as the steps call it by themselves. -/
  direct : CounterStore σ := store
  name : String
  showsStoreCalls : Bool := false
  extend : String → List Cue → σ → σ := fun _ _ s => s
  /-- The client commands since the last time, in order. -/
  drain : σ → List Call × σ := fun s => ([], s)
  setStatus : String → σ → σ := fun _ s => s
  /-- What is logged when the client reports an error between calls. -/
  clientError : Fault → Except Fault (List LogLine) := fun _ => .ok []
  /-- The in-memory store inside, if there is one, and the state with another one in it. -/
  memory? : σ → Option (MemoryStore.State × (MemoryStore.State → σ)) := fun _ => none

def memoryRig (options : MemoryStore.Options) (name : String) : Rig ScriptedMemory.State where
  store := ScriptedMemory.store options
  name := name
  showsStoreCalls := true
  extend := fun method cues s => { s with script := s.script.extend method cues }
  memory? := fun s => some (s.inner, fun inner => { s with inner := inner })

def plainMemoryRig (options : MemoryStore.Options) : Rig MemoryStore.State where
  store := MemoryStore.store options
  name := MemoryStore.storeName
  memory? := fun s => some (s, id)

def redisRig (isCluster : Bool) (settings : RedisStore.Settings) :
    Rig (RedisStore.State ScriptedRedis.State) where
  store := RedisStore.store (ScriptedRedis.client isCluster) settings
  name := RedisStore.storeName
  extend := fun method cues s =>
    { s with client := { s.client with script := s.client.script.extend method cues } }
  drain := fun s =>
    (s.client.sent.reverse.map Call.redis, { s with client := { s.client with sent := [] } })
  setStatus := fun status s => { s with client := { s.client with status := status } }
  clientError := fun fault => (RedisStore.clientError fault).map ([·])

def mongoRig (settings : MongoStore.Settings) : Rig (MongoStore.State ScriptedMongo.State) where
  store := MongoStore.store ScriptedMongo.client settings
  name := MongoStore.storeName
  extend := fun method cues s =>
    { s with client := { s.client with script := s.client.script.extend method cues } }
  drain := fun s =>
    (s.client.sent.reverse.map Call.mongo, { s with client := { s.client with sent := [] } })

def inertRig : Rig Unit where
  store := InertStore.store "this.store"
  direct := InertStore.store "store"
  name := "custom"

inductive StoreSpec where
  | memory (options : Value)
  | redis (isCluster : Bool) (status : String) (options : Value)
  | mongo (connection : MongoStore.Connection) (collection options : Value)

def StoreSpec.connection : StoreSpec → MongoStore.Connection
  | .mongo connection _ _ => connection
  | _ => .none

structure Built where
  state : Type
  rig : Rig state
  outcome : Outcome LogLine Fault state Unit

def buildMongo (settings : MongoStore.Settings) (connection : MongoStore.Connection)
    (script : Script) (now : Binary64) : Built :=
  ⟨_, mongoRig settings,
    MongoStore.attach ScriptedMongo.client settings connection now
      { client := { script := script } }⟩

def buildRedis (isCluster : Bool) (status : String) (settings : RedisStore.Settings)
    (script : Script) (now : Binary64) : Built :=
  ⟨_, redisRig isCluster settings,
    RedisStore.subscribe (ScriptedRedis.client isCluster) now
      { client := { status := status, script := script } }⟩

def StoreSpec.build (spec : StoreSpec) (name : String) (script : Script) (now : Binary64) :
    Built :=
  match spec with
  | .memory options =>
    ⟨_, memoryRig (.ofOptions options) name, ⟨.ok (), { script := script }, []⟩⟩
  | .redis isCluster status options =>
    buildRedis isCluster status (.ofOptions options) script now
  | .mongo connection collection options =>
    buildMongo (.ofValues collection
      ((options.field "operationTimeoutMs").orElse (.number defaultTimeout)))
      connection script now

def buildSelection (selection : Selection) (spec : StoreSpec) (script : Script)
    (now : Binary64) : Built :=
  match selection with
  | .custom => spec.build "custom" script now
  | .inert => ⟨_, inertRig, ⟨.ok (), (), []⟩⟩
  | .memory options => ⟨_, plainMemoryRig options, ⟨.ok (), {}, []⟩⟩
  | .redis plan =>
    buildRedis (plan.mode = .cluster) "wait" plan.settings script now
  | .mongo settings => buildMongo settings spec.connection script now

end SlidingTally.Rehearsal
