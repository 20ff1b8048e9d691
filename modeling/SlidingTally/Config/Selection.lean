import SlidingTally.Config
import SlidingTally.Store.Memory
import SlidingTally.Store.Redis
import SlidingTally.Store.Mongo

/-!
# Selecting a store

`Config.select` turns a configuration into the plan of the store it asks for, without
connecting anything. A Redis plan targets the configured addresses: one makes a single
node, several make a cluster, and without any it falls back to the local server.
-/

namespace SlidingTally

namespace RedisStore

def Settings.ofOptions (options : Value) : Settings :=
  let default : Settings := {}
  ⟨(options.field "keyPrefix").orElse default.keyScope⟩

inductive Mode where
  | single
  | cluster
deriving DecidableEq

def Mode.name : Mode → String
  | .single => "single"
  | .cluster => "cluster"

def localServer : ServerAddress := ⟨"localhost", 6379⟩

/-- A Redis store to be: its nodes and settings. Its client connects on first use. -/
structure Plan where
  addresses : List ServerAddress
  password : Value
  settings : Settings
  timeout : Value

def Plan.mode (plan : Plan) : Mode := if 1 < plan.addresses.length then .cluster else .single

def Plan.nodes (plan : Plan) : List ServerAddress :=
  match plan.addresses with
  | [] => [localServer]
  | addresses => addresses

/-- Only a cluster client gathers commands into batches by itself. -/
def Plan.autoPipelining (plan : Plan) : Bool := plan.mode = .cluster

end RedisStore

def MongoStore.Settings.ofValues (collection timeout : Value) : MongoStore.Settings :=
  let default : MongoStore.Settings := {}
  ⟨collection.orDefault default.collection, timeout⟩

def MemoryStore.Options.ofOptions (options : Value) : MemoryStore.Options :=
  let default : MemoryStore.Options := {}
  ⟨(options.field "incrementCreatesMissingKeys").orElse default.createsOnIncrement,
    (options.field "supportsTouch").orElse default.supportsTouch⟩

inductive Selection where
  | redis (plan : RedisStore.Plan)
  | mongo (settings : MongoStore.Settings)
  | memory (options : MemoryStore.Options)
  /-- The store that the caller supplies. -/
  | custom
  /-- A value that stands in for a supplied store and fails every call. -/
  | inert

namespace Config

variable {σ : Type}

/-- A field of the store options, which are empty unless they are given; null has none. -/
def storeOption (config : Config) (name : String) : Except Fault Value :=
  (config.storeOptions.orDefault (.record [])).property name

def select (config : Config) : Action LogLine Fault σ Selection := do
  match config.storeKind? with
  | some .mongo =>
    let collection ← Action.ofExcept (config.storeOption "collectionName")
    return .mongo (.ofValues collection config.timeout)
  | some .redis =>
    let addresses ← ServerList.parseValue config.serverEntries
    let options ← Action.ofExcept (config.storeOption "redis")
    return .redis ⟨addresses, options.field "password", .ofOptions options, config.timeout⟩
  | some .memory =>
    let options ← Action.ofExcept (config.storeOption "memory")
    return .memory (.ofOptions options)
  | some .custom =>
    if config.suppliesStore then return .custom
    if config.customStore.truthy then return .inert
    Action.fail (.plain <| "Counter store type is \"custom\" but no customStoreInstance was " ++
      "provided in VelocityCounterConfig.")
  | none =>
    Action.fail (.plain ("Unsupported counter store: " ++ (← Action.ofExcept config.store.asText)))

-- ---------------------------------------------------------------------------
-- The sink
-- ---------------------------------------------------------------------------

inductive SinkChoice where
  | builtIn
  | supplied
  /-- A value that stands in for a sink and takes no observation. -/
  | inert
deriving DecidableEq

namespace SinkChoice

/-- The choice of a setting, where `true` stands for a sink. -/
def ofValue : Value → SinkChoice
  | .undefined => .builtIn
  | .null => .builtIn
  | .bool true => .supplied
  | _ => .inert

def recorderName : Metric → String
  | .increment _ => "recordIncrement"
  | .query _ => "recordQuery"
  | .reads _ => "recordBucketReads"
  | .keyValue _ _ => "recordKvOperation"

def refusal (choice : SinkChoice) (metric : Metric) : Option Fault :=
  match choice with
  | .inert => some (.wrongType ("this.metrics." ++ recorderName metric ++ " is not a function"))
  | _ => none

end SinkChoice

/-- The factory of the part that registrations provide under `Registration.metricsToken`: the sink of
the configuration, and without one the built-in sink. -/
def sinkChoice (config : Config) : SinkChoice := .ofValue config.metrics

end Config

end SlidingTally
