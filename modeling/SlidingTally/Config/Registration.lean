import SlidingTally.Config

/-!
# Registering the counters with an application

What an application gets when it registers the counters: the parts that are provided and
exported, whether the metrics endpoint is among them, and the database connection that is
opened along with them. The configuration is given at once, or by a source that resolves
later; then the endpoint has to be asked for with the source.
-/

namespace SlidingTally

structure DatabaseConnection where
  uri : Value
  socketTimeout : Value
  serverSelectionTimeout : Binary64

structure Registration where
  imports : List String
  controllers : List String
  providers : List String
  exports : List String
  databases : List DatabaseConnection
  /-- What the provider of the configuration depends on; none for a configuration that is
  given at once. -/
  configDependencies : Option (List String)

/-- Where a configuration comes from that is not given at once. Each field is a class, or a
function for `factory`; the factory wins over the class that is to be instantiated, and
that over an existing one. -/
structure ConfigSource where
  factory : Bool := false
  instantiate : Option String := none
  existing : Option String := none
  imports : List String := []
  dependencies : List String := []
  exposeMetrics : Value := .undefined

namespace Registration

def moduleName : String := "VelocityCounterModule"

def configToken : String := "VELOCITY_COUNTER_CONFIG"

def storeToken : String := "VELOCITY_COUNTER_STORE"

def metricsToken : String := "VELOCITY_COUNTER_METRICS"

def clockToken : String := "VELOCITY_COUNTER_CLOCK"

/-- The parts that every registration provides beside the configuration, by what they are asked for
under. The factory of `metricsToken` is `Config.sinkChoice`, that of `storeToken` is `Config.select`:
both are handed the configuration when the application boots. -/
def sharedProviders : List String :=
  ["PrometheusMetricsSink", metricsToken, clockToken, storeToken, Component.name .counter,
    Component.name .keyValue]

def exported : List String :=
  [Component.name .counter, Component.name .keyValue, "PrometheusMetricsSink", storeToken]

def controllersFor (exposeMetrics : Value) : List String :=
  if exposeMetrics.truthy then ["CounterMetricsController"] else []

/-- The least time to look for a database server, in milliseconds. -/
def leastSelectionTimeout : Binary64 := 1000

def databaseOf (config : Config) : Except Fault (List DatabaseConnection) :=
  if config.storeKind? = some .mongo ∧ config.mongoUri.truthy then do
    let timeout ← config.timeout.asNumber
    return [⟨config.mongoUri, config.timeout, Binary64.max timeout leastSelectionTimeout⟩]
  else .ok []

variable {σ : Type}

def ofConfig (config : Config) : Action LogLine Fault σ Registration := do
  config.validate true
  let databases ← Action.ofExcept (databaseOf config)
  return {
    imports := databases.map fun _ => "MongooseModule"
    controllers := controllersFor config.exposeMetrics
    providers := configToken :: sharedProviders
    exports := exported
    databases := databases
    configDependencies := none }

def dependenciesOf (source : ConfigSource) : Except Fault (List String) :=
  if source.factory then .ok source.dependencies
  else match source.instantiate.or source.existing with
    | some configClass => .ok [configClass]
    | none => .error <| .plain <| "Invalid VelocityCounterAsyncConfig. Must provide " ++
        "useFactory, useClass, or useExisting."

def ofSource (source : ConfigSource) : Except Fault Registration := do
  let dependencies ← dependenciesOf source
  return {
    imports := source.imports
    controllers := controllersFor source.exposeMetrics
    providers := configToken ::
      ((if source.factory then [] else source.instantiate.toList) ++ sharedProviders)
    exports := exported
    databases := []
    configDependencies := some dependencies }

/-- Checks the configuration that a source resolves to. An endpoint asked for with the source
counts as asked for by the configuration, and the application brings its own database
connection. -/
def checkResolved (source : ConfigSource) (config : Config) : Action LogLine Fault σ Unit :=
  let exposeMetrics := if config.exposeMetrics.truthy then config.exposeMetrics
    else source.exposeMetrics
  { config with exposeMetrics := exposeMetrics }.validate false

end Registration

end SlidingTally
