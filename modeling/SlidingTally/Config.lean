import SlidingTally.ServerList

/-!
# Configurations

A configuration says which store backs the counters and how. Its fields come from callers
and environments and are untyped; `Config.validate` refuses the configurations that cannot
work, each for the first reason in a fixed order, before anything is built.
-/

namespace SlidingTally

inductive StoreKind where
  | redis
  | mongo
  | memory
  | custom
deriving DecidableEq

namespace StoreKind

def all : List StoreKind := [.redis, .mongo, .memory, .custom]

def name : StoreKind → String
  | .redis => "redis"
  | .mongo => "mongo"
  | .memory => "memory"
  | .custom => "custom"

def ofValue? (value : Value) : Option StoreKind :=
  value.text?.bind fun text => all.find? fun kind => kind.name = text

end StoreKind

/-- What the counters are configured with; a field that is not given is undefined. -/
structure Config where
  store : Value := .undefined
  /-- The `host:port` entries of the store's nodes. -/
  servers : Value := .undefined
  /-- A record of settings for single stores. -/
  storeOptions : Value := .undefined
  /-- The store to use when `store` is custom. -/
  customStore : Value := .undefined
  /-- The time limit of one store call in milliseconds. -/
  operationTimeout : Value := .undefined
  /-- A sink in place of the default one. -/
  metrics : Value := .undefined
  /-- Whether the metrics of the default sink are served. -/
  exposeMetrics : Value := .undefined
deriving Inhabited

/-- The time limit of a store call in milliseconds where none is configured. -/
def defaultTimeout : Binary64 := 250

namespace Config

variable {σ : Type}

def storeKind? (config : Config) : Option StoreKind := StoreKind.ofValue? config.store

inductive Refusal where
  | noStore
  | noServer
  | noMongoUri
  | noCustomStore
  | timeoutNotPositive
  | endpointWithoutDefaultSink
deriving DecidableEq

def Refusal.message : Refusal → String
  | .noStore => "VelocityCounter config must include a store"
  | .noServer => "Redis counter store requires at least one valid host:port entry in servers"
  | .noMongoUri => "Mongo counter store requires storeOptions.mongoUri"
  | .noCustomStore =>
    "Custom counter store requires a customStoreInstance in VelocityCounterConfig"
  | .timeoutNotPositive => "operationTimeoutMs must be a positive number"
  | .endpointWithoutDefaultSink =>
    "exposeMetricsEndpoint is only available with the default metrics sink"

def Refusal.fault (refusal : Refusal) : Fault := .plain refusal.message

def refuse (refusal : Refusal) (condition : Bool) : Action LogLine Fault σ Unit :=
  if condition then Action.fail refusal.fault else pure ()

def serverEntries (config : Config) : Value := config.servers.orElse (.list [])

def mongoUri (config : Config) : Value := config.storeOptions.field "mongoUri"

def timeoutIsValid (timeout : Value) : Except Fault Bool :=
  match timeout with
  | .undefined => .ok true
  | timeout => do return Binary64.zero.lt (← timeout.asNumber)

/-- Refuses a configuration that cannot work, for the first reason there is. Malformed
servers are logged. -/
def validate (config : Config) (requireMongoUri : Bool) : Action LogLine Fault σ Unit := do
  refuse .noStore (!config.store.truthy)
  if config.storeKind? = some .redis then
    let addresses ← ServerList.parseValue config.serverEntries
    refuse .noServer addresses.isEmpty
  refuse .noMongoUri
    (requireMongoUri && config.storeKind? = some .mongo && !config.mongoUri.truthy)
  refuse .noCustomStore (config.storeKind? = some .custom && !config.customStore.truthy)
  refuse .timeoutNotPositive (!(← Action.ofExcept (timeoutIsValid config.operationTimeout)))
  refuse .endpointWithoutDefaultSink (config.exposeMetrics.truthy && config.metrics.truthy)

def validateWith (config : Config) (options : Value) : Action LogLine Fault σ Unit := do
  let required ← Action.ofExcept <|
    (options.orDefault (.record [])).property "requireMongoUri"
  config.validate (required.orDefault (.bool true)).truthy

/-- Whether the caller supplies a store of their own, for which `true` stands. -/
def suppliesStore (config : Config) : Bool :=
  match config.customStore with
  | .bool true => true
  | _ => false

def timeout (config : Config) : Value := config.operationTimeout.orElse (.number defaultTimeout)

end Config

end SlidingTally
