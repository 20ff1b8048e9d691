import SlidingTally.Codec
import SlidingTally.Duration
import SlidingTally.Store

/-!
# Typed values

Reads and writes single keys of a counter store as texts, integers or numbers. A store that
fails never makes a call fail: a read then replies with the caller's fallback and a write
does nothing, with a log line and a metric.
-/

namespace SlidingTally.KeyValue

variable {σ : Type}

def defaultTtl : Value := .number (.ofNat Duration.day)

def complain (what : String) (key : Key) (fault : Fault) : Service σ Unit := do
  explain .error .keyValue (what ++ (← orReject key.value.asText) ++ ": ") fault

/-- Reads a key: the decoded value, or the fallback when the key is absent or anything
fails. -/
def read (w : Wiring σ) (operation : KeyValueOperation) (key : Key) (fallback : Value)
    (decode : Value → Except Fault Value) : Service σ Value := do
  if (← demand w .isInitialized).truthy then rescue look failed
  else finish .skip fallback
where
  finish (status : Status) (result : Value) : Service σ Value := do
    observe w (.keyValue operation status)
    return result
  look : Service σ Value := do
    let value ← demand w (.get key)
    let result ← if value.isNull then pure fallback else orReject (decode value)
    finish .ok result
  failed (fault : Fault) : Service σ Value := do
    complain s!"Error in {operation.name} for " key fault
    finish .error fallback

def getText (w : Wiring σ) (key : Key) (fallback : Value) : Service σ Value :=
  read w .getText key (fallback.orDefault (.text "")) fun value =>
    (Codec.text value).map .text

def getInteger (w : Wiring σ) (key : Key) (fallback : Value) : Service σ Value :=
  read w .getInteger key (fallback.orDefault (.number .zero)) fun value =>
    (Codec.integer key.value value).map .number

def getFloat (w : Wiring σ) (key : Key) (fallback : Value) : Service σ Value :=
  read w .getFloat key (fallback.orDefault (.number .zero)) fun value =>
    (Codec.float key.value value).map .number

/-- Writes a value with a time to live in seconds, a day unless it is given, where zero or
less keeps it. -/
def set (w : Wiring σ) (key : Key) (value ttl : Value) : Service σ Unit := do
  if (← demand w .isInitialized).truthy then rescue write failed
  else finish .skip
where
  finish (status : Status) : Service σ Unit := observe w (.keyValue .set status)
  write : Service σ Unit := do
    let _ ← demand w (.set key value (ttl.orDefault defaultTtl))
    finish .ok
  failed (fault : Fault) : Service σ Unit := do
    complain "Error setting " key fault
    finish .error

end SlidingTally.KeyValue
