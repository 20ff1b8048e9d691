import SlidingTally.Journal
import SlidingTally.Value.Access
import SlidingTally.Value.Key

/-!
# Counter stores

A counter store answers the calls of `StoreCall` with a value and may fail any of them. The
store is not trusted to keep to the kinds of values that it should reply with, and neither
are callers with what they ask for. `CounterStore` is any such behaviour over any state, so
that a statement about all stores quantifies over it. Callers go through `ask`, which never
fails and puts the call with its answer into the journal, and `startOrFailOpen` turns a
store that cannot be reached into one that stays uninitialized.
-/

namespace SlidingTally

inductive TouchResult where
  | touched
  | notFound
  | unsupported
deriving DecidableEq

namespace TouchResult

def all : List TouchResult := [.touched, .notFound, .unsupported]

def name : TouchResult → String
  | .touched => "touched"
  | .notFound => "not_found"
  | .unsupported => "unsupported"

def value (result : TouchResult) : Value := .text result.name

def ofValue? (reply : Value) : Option TouchResult :=
  reply.text?.bind fun text => all.find? fun result => result.name = text

theorem ofValue?_value (result : TouchResult) : ofValue? result.value = some result := by
  cases result <;> simp [ofValue?, value, Value.text?, all, name]

end TouchResult

/-- A call to a counter store. A time to live is in seconds; none of it or less keeps the
key without expiry. -/
inductive StoreCall where
  | start
  | close
  | isInitialized
  /-- Adds one and replies with the new value, or with null when the key is absent and the
  store does not create it. -/
  | increment (key : Key)
  /-- Creates an absent key and replies whether it did. -/
  | addIfAbsent (key : Key) (value ttl : Value)
  /-- Replies with the text of a `TouchResult`. -/
  | touch (key : Key) (ttl : Value)
  | set (key : Key) (value ttl : Value)
  /-- Replies with the value of a key, null when it is absent. -/
  | get (key : Key)
  /-- Replies with a table of the present keys among those asked for. -/
  | getMulti (keys : Value)

def StoreCall.isData : StoreCall → Bool
  | .start => false
  | .close => false
  | .isInitialized => false
  | _ => true

def StoreCall.name : StoreCall → String
  | .start => "initialize"
  | .close => "close"
  | .isInitialized => "isInitialized"
  | .increment _ => "increment"
  | .addIfAbsent _ _ _ => "addIfAbsent"
  | .touch _ _ => "touch"
  | .set _ _ _ => "set"
  | .get _ => "get"
  | .getMulti _ => "getMulti"

abbrev StoreAction (σ α : Type) := Action LogLine Fault σ α

/-- Any behaviour that answers every call, given a clock reading in epoch milliseconds. It is the
one reading of the call: where a store looks at the clock more than once, to see what is expired, to
sweep and to date what it writes, it sees the same moment each time. -/
abbrev CounterStore (σ : Type) := Binary64 → StoreCall → StoreAction σ Value

-- ---------------------------------------------------------------------------
-- Services
-- ---------------------------------------------------------------------------

inductive Event where
  | log (line : LogLine)
  | metric (metric : Metric)
  | call (call : StoreCall) (reply : Except Fault Value)

def Event.log? : Event → Option LogLine
  | .log line => some line
  | _ => none

def Event.metric? : Event → Option Metric
  | .metric observed => some observed
  | _ => none

def Event.call? : Event → Option StoreCall
  | .call asked _ => some asked
  | _ => none

/-- Why a service call does not return: it rejects, or it never ends. -/
inductive Halt where
  | fault (fault : Fault)
  | endless

abbrev Service (σ α : Type) := Action Event Halt σ α

/-- What a service works with: a store, the clock and a sink, of which only its refusals matter. -/
structure Wiring (σ : Type) where
  store : CounterStore σ
  /-- The clock reading in epoch milliseconds. It is the one reading of a service call: the store
  calls that it makes are answered at the moment at which it began. -/
  now : Binary64
  /-- Why the sink does not take an observation, none if it does. -/
  refusal : Metric → Option Fault := fun _ => none

variable {σ α : Type}

def ask (w : Wiring σ) (call : StoreCall) : Service σ (Except Fault Value) := fun s =>
  let outcome := w.store w.now call s
  ⟨.ok outcome.reply, outcome.state,
    outcome.journal.map Event.log ++ [Event.call call outcome.reply]⟩

def orReject (result : Except Fault α) : Service σ α :=
  Action.ofExcept (result.mapError Halt.fault)

def demand (w : Wiring σ) (call : StoreCall) : Service σ Value := do
  orReject (← ask w call)

/-- Does something else instead of rejecting. What never ends is not rescued. -/
def rescue (x : Service σ α) (otherwise : Fault → Service σ α) : Service σ α := fun s =>
  let outcome := x s
  match outcome.reply with
  | .error (.fault fault) =>
    let second := otherwise fault outcome.state
    ⟨second.reply, second.state, outcome.journal ++ second.journal⟩
  | _ => outcome

def say (level : LogLevel) (component : Component) (text : String) : Service σ Unit :=
  Action.record (.log ⟨level, component, text⟩)

/-- Writes a log line that ends with the wording of a fault, and rejects if it has none. -/
def explain (level : LogLevel) (component : Component) (lead : String) (fault : Fault) :
    Service σ Unit := do
  say level component (lead ++ (← orReject fault.describe))

def observe (w : Wiring σ) (metric : Metric) : Service σ Unit :=
  match w.refusal metric with
  | some fault => Action.fail (.fault fault)
  | none => Action.record (.metric metric)

-- ---------------------------------------------------------------------------
-- Runs
-- ---------------------------------------------------------------------------

theorem run_ask (w : Wiring σ) (call : StoreCall) (s : σ) :
    ask w call s = ⟨.ok (w.store w.now call s).reply, (w.store w.now call s).state,
      (w.store w.now call s).journal.map Event.log ++
        [Event.call call (w.store w.now call s).reply]⟩ :=
  rfl

@[simp] theorem orReject_ok (a : α) : (orReject (.ok a) : Service σ α) = pure a := rfl

@[simp] theorem orReject_error (fault : Fault) :
    (orReject (.error fault) : Service σ α) = Action.fail (.fault fault) := rfl

theorem run_rescue_ok {x : Service σ α} {s s' : σ} {a : α} {entries : List Event}
    (h : x s = ⟨.ok a, s', entries⟩) (otherwise : Fault → Service σ α) :
    rescue x otherwise s = ⟨.ok a, s', entries⟩ := by
  simp [rescue, h]

theorem run_rescue_fault {x : Service σ α} {s s' : σ} {fault : Fault} {entries : List Event}
    (h : x s = ⟨.error (.fault fault), s', entries⟩) (otherwise : Fault → Service σ α) :
    rescue x otherwise s = ⟨(otherwise fault s').reply, (otherwise fault s').state,
      entries ++ (otherwise fault s').journal⟩ := by
  simp [rescue, h]

theorem run_explain {fault : Fault} {text : String} (h : fault.message? = some text)
    (level : LogLevel) (component : Component) (lead : String) (s : σ) :
    explain level component lead fault s =
      ⟨.ok (), s, [.log ⟨level, component, lead ++ text⟩]⟩ := by
  simp only [explain, Fault.describe, h]
  rfl

theorem run_observe {w : Wiring σ} {metric : Metric} (h : w.refusal metric = none) (s : σ) :
    observe w metric s = ⟨.ok (), s, [.metric metric]⟩ := by
  simp [observe, h]

-- ---------------------------------------------------------------------------
-- Starting
-- ---------------------------------------------------------------------------

/-- Initializes a store once. A store that cannot be reached stays uninitialized, and every
counter call against it fails open. -/
def startOrFailOpen (w : Wiring σ) : Service σ Unit := do
  match ← ask w .start with
  | .ok _ => return ()
  | .error fault =>
    explain .error .storeSelection "Counter store unavailable, counters will fail open: " fault

end SlidingTally
