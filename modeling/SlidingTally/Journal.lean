import SlidingTally.Action
import SlidingTally.Fault

/-!
# Log lines and metrics

What the library reports about itself while it works: log lines, each from one component,
and metrics, each one observation for a sink.
-/

namespace SlidingTally

inductive LogLevel where
  | log
  | error
  | warn
  | debug
deriving DecidableEq

def LogLevel.name : LogLevel → String
  | .log => "log"
  | .error => "error"
  | .warn => "warn"
  | .debug => "debug"

inductive Component where
  | counter
  | keyValue
  | memoryStore
  | redisStore
  | mongoStore
  | storeSelection
  | serverList
deriving DecidableEq

def Component.name : Component → String
  | .counter => "SlidingWindowCounterService"
  | .keyValue => "TypedKvService"
  | .memoryStore => "MemoryCounterStoreAdapter"
  | .redisStore => "RedisCounterStoreAdapter"
  | .mongoStore => "MongoCounterStoreAdapter"
  | .storeSelection => "CounterStoreFactory"
  | .serverList => "ServerList"

structure LogLine where
  level : LogLevel
  component : Component
  text : String
deriving DecidableEq

-- ---------------------------------------------------------------------------
-- Metrics
-- ---------------------------------------------------------------------------

/-- How an operation ended; `skip` means that it was not tried. -/
inductive Status where
  | ok
  | error
  | skip
deriving DecidableEq

def Status.name : Status → String
  | .ok => "ok"
  | .error => "error"
  | .skip => "skip"

inductive KeyValueOperation where
  | getText
  | getInteger
  | getFloat
  | set
deriving DecidableEq

def KeyValueOperation.name : KeyValueOperation → String
  | .getText => "get_str"
  | .getInteger => "get_int"
  | .getFloat => "get_float"
  | .set => "set"

/-- One observation: the end of an increment, a query or a typed read or write, or the
number of buckets that a window read covers. -/
inductive Metric where
  | increment (status : Status)
  | query (status : Status)
  | reads (count : Nat)
  | keyValue (operation : KeyValueOperation) (status : Status)
deriving DecidableEq

end SlidingTally
