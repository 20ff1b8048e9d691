import SlidingTally.KeyValue
import SlidingTally.Metrics.Exposition
import SlidingTally.Rehearsal.Rig
import SlidingTally.Window.Counter

/-!
# Steps

A session takes steps under a clock that only the steps move. `Step.run` takes one and
leaves an `Entry`: its result, and what was logged, called and observed during it.
-/

namespace SlidingTally.Rehearsal

-- ---------------------------------------------------------------------------
-- Steps
-- ---------------------------------------------------------------------------

structure Entry where
  result : Except Halt Value
  logs : List LogLine := []
  calls : List Call := []
  metrics : List Metric := []

inductive Step where
  | advance (milliseconds : Binary64)
  | setClock (milliseconds : Binary64)
  | script (method : String) (cues : List Cue)
  | store (call : StoreCall)
  | boot
  | remainingTtl (key : Key)
  | memorySize
  | memoryDump
  | clientError (fault : Except Fault Fault)
  | clientStatus (status : String)
  | increment (name window maxTtl : Value)
  | query (name window : Value)
  | getText (key : Key) (fallback : Value)
  | getInteger (key : Key) (fallback : Value)
  | getFloat (key : Key) (fallback : Value)
  | set (key : Key) (value ttl : Value)
  | metricsText
  | metricsEndpoint
  | storeName
  | hasEndpoint
  | closeApplication

/-- What stays the same during a session: where metrics go, and whether they are served. A
supplied sink shows them. -/
structure Stage where
  sink : Config.SinkChoice
  hasEndpoint : Bool := false

structure Scene (σ : Type) where
  clock : Binary64
  state : σ
  sink : Metrics.Sink := .new

variable {σ : Type}

/-- Store calls are shown but for the question whether the store is initialized. -/
def shownCall? (event : Event) : Option Call :=
  match event.call? with
  | some .isInitialized => none
  | call => call.map Call.store

def wiring (rig : Rig σ) (stage : Stage) (clock : Binary64) : Wiring σ :=
  ⟨rig.store, clock, stage.sink.refusal⟩

def Scene.perform (rig : Rig σ) (stage : Stage) (scene : Scene σ)
    (action : Service σ Value) : Entry × Scene σ :=
  let outcome := action scene.state
  let (sent, state) := rig.drain outcome.state
  let storeCalls := if rig.showsStoreCalls then outcome.journal.filterMap shownCall? else []
  let observed := outcome.journal.filterMap Event.metric?
  let shown := stage.sink = .supplied
  let entry : Entry := {
    result := outcome.reply
    logs := outcome.journal.filterMap Event.log?
    calls := storeCalls ++ sent
    metrics := if shown then observed else [] }
  let sink := if shown then scene.sink else observed.foldl Metrics.Sink.record scene.sink
  (entry, { scene with state := state, sink := sink })

def noEndpoint : Fault :=
  .plain <| "Nest could not find CounterMetricsController element " ++
    "(this provider does not exist in the current context)"

def onMemory (rig : Rig σ) (look : MemoryStore.State → Value × MemoryStore.State) :
    Service σ Value := fun s =>
  match rig.memory? s with
  | none => ⟨.ok .null, s, []⟩
  | some (inner, put) =>
    let (result, after) := look inner
    ⟨.ok result, put after, []⟩

def dump (s : MemoryStore.State) : Value :=
  let texts := s.entries.entries.map fun (_, entry) => (entry.key.toText?.getD "", entry)
  .list <| (texts.mergeSort fun a b => !(b.1 < a.1)).map fun (_, entry) =>
    .list [entry.key, entry.value, (entry.expiresAt.map .number).getD .null]

def Step.action (rig : Rig σ) (stage : Stage) (scene : Scene σ) : Step → Service σ Value
  | advance _ => return .number scene.clock
  | setClock _ => return .number scene.clock
  | script method cues => do
    Action.update (rig.extend method cues)
    return .null
  | store call => demand direct call
  | boot => do
    startOrFailOpen direct
    demand direct .isInitialized
  | remainingTtl key => onMemory rig fun s =>
    let outcome := MemoryStore.remainingTtl scene.clock key s
    match outcome.reply with
    | .ok (some seconds) => (.number seconds, outcome.state)
    | _ => (.null, outcome.state)
  | memorySize => onMemory rig fun s => (.number (.ofNat s.size), s)
  | memoryDump => onMemory rig fun s => (dump s, s)
  | clientError fault => do
    (← orReject (rig.clientError (← orReject fault))).forM fun line => Action.record (.log line)
    return .null
  | clientStatus status => do
    Action.update (rig.setStatus status)
    return .null
  | increment name window maxTtl => Counter.increment w name window maxTtl
  | query name window => Counter.query w name window
  | getText key fallback => KeyValue.getText w key fallback
  | getInteger key fallback => KeyValue.getInteger w key fallback
  | getFloat key fallback => KeyValue.getFloat w key fallback
  | set key value ttl => do
    KeyValue.set w key value ttl
    return .null
  | metricsText => return .text scene.sink.text
  | metricsEndpoint =>
    if stage.hasEndpoint then return .text scene.sink.text
    else Action.fail (.fault noEndpoint)
  | storeName => return .text rig.name
  | hasEndpoint => return .bool stage.hasEndpoint
  | closeApplication => do
    let _ ← demand w .close
    return .null
where
  w : Wiring σ := wiring rig stage scene.clock
  direct : Wiring σ := { w with store := rig.direct }

def Step.clockAfter (clock : Binary64) : Step → Binary64
  | advance milliseconds => clock + milliseconds
  | setClock milliseconds => milliseconds
  | _ => clock

def Step.run (rig : Rig σ) (stage : Stage) (scene : Scene σ) (step : Step) : Entry × Scene σ :=
  let scene := { scene with clock := step.clockAfter scene.clock }
  scene.perform rig stage (step.action rig stage scene)

def Step.runTimes (rig : Rig σ) (stage : Stage) (step : Step) :
    Nat → Scene σ → Entry → Entry × Scene σ
  | 0, scene, entry => (entry, scene)
  | times + 1, scene, entry =>
    let (next, after) := step.run rig stage scene
    let entry : Entry := ⟨next.result, entry.logs ++ next.logs, entry.calls ++ next.calls,
      entry.metrics ++ next.metrics⟩
    match next.result with
    | .ok _ => runTimes rig stage step times after entry
    | .error _ => (entry, after)

def runSteps (rig : Rig σ) (stage : Stage) : Scene σ → List (Step × Nat) → List Entry
  | _, [] => []
  | scene, (step, times) :: rest =>
    let (entry, after) := step.runTimes rig stage times scene { result := .ok .null }
    entry :: runSteps rig stage after rest

end SlidingTally.Rehearsal
