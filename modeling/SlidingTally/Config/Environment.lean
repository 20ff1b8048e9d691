import SlidingTally.Config

/-!
# Configurations from environment variables

`Config.ofEnvironment` reads a configuration from variables. The store is Redis unless
another one is named, servers are a comma-separated list, and a timeout is the integer at
the start of its text.
-/

namespace SlidingTally

/-- Variables with their values; what is not there is undefined. -/
structure Environment where
  bindings : List (String × Value)

namespace Environment

def get (environment : Environment) (name : String) : Value :=
  (environment.bindings.lookup name).getD .undefined

end Environment

namespace Config

def timeoutOfVariable (value : Value) : Except Fault Value :=
  if value.truthy then do return .number (Numeral.readInteger (← value.asText))
  else .ok .undefined

def redisOfVariable : Value → Value
  | .undefined => .undefined
  | keyScope => .record [("keyPrefix", keyScope)]

def ofEnvironment (environment : Environment) : Except Fault Config := do
  let store := (environment.get "VELOCITY_COUNTER_STORE").orDefault (.text StoreKind.redis.name)
  if (StoreKind.ofValue? store).isNone then
    throw (.plain ("Unsupported VELOCITY_COUNTER_STORE: " ++ (← store.asText)))
  let servers ← ServerList.splitValue (environment.get "VELOCITY_COUNTER_SERVERS")
  return {
    store := store
    servers := .list (servers.map .text)
    storeOptions := .record [
      ("mongoUri", environment.get "VELOCITY_COUNTER_MONGO_URI"),
      ("redis", redisOfVariable (environment.get "VELOCITY_COUNTER_KEY_PREFIX"))]
    operationTimeout := ← timeoutOfVariable (environment.get "VELOCITY_COUNTER_TIMEOUT_MS") }

end Config

end SlidingTally
