import SlidingTally.Config.Environment
import SlidingTally.Config.Registration
import SlidingTally.Rehearsal.Step

/-!
# Sessions

A `Session` sets counters up over a scripted collaborator, on their own or as a registered
application, and takes its steps. `Session.run` gives one entry for the setup and, if that
succeeded, one for each step.
-/

namespace SlidingTally.Rehearsal

-- ---------------------------------------------------------------------------
-- Setting up
-- ---------------------------------------------------------------------------

inductive Origin where
  | given (config : Config)
  | fromEnvironment (environment : Environment)

def Origin.resolve (origin : Origin) : Except Fault Config :=
  match origin with
  | .given config => .ok config
  | .fromEnvironment environment => Config.ofEnvironment environment

/-- How an application registers the counters: with the configuration at once, or with a
source for it. -/
structure Application where
  source : Option ConfigSource
  origin : Origin

def Application.plan (application : Application) :
    Action LogLine Fault Unit (Selection × Stage) := do
  let (config, registration) ← register
  let selection ← config.select
  return (selection, ⟨config.sinkChoice, !registration.controllers.isEmpty⟩)
where
  register : Action LogLine Fault Unit (Config × Registration) :=
    match application.source with
    | none => do
      let config ← Action.ofExcept application.origin.resolve
      return (config, ← Registration.ofConfig config)
    | some source => do
      let registration ← Action.ofExcept (Registration.ofSource source)
      let config ← Action.ofExcept application.origin.resolve
      Registration.checkResolved source config
      return (config, registration)

def Application.bringsStore (application : Application) : Bool :=
  match application.origin with
  | .given config => config.suppliesStore
  | .fromEnvironment _ => false

structure Session where
  clock : Binary64 := .zero
  store : StoreSpec
  boot : Bool := false
  script : Script := []
  /-- Whether metrics are added up in the default sink instead of shown. -/
  defaultSink : Bool := false
  application : Option Application := none
  steps : List (Step × Nat) := []

def Session.runBuilt (session : Session) (built : Built) (stage : Stage) (boot : Bool)
    (logs : List LogLine) : List Entry :=
  let outcome := built.outcome
  let scene : Scene built.state := { clock := session.clock, state := outcome.state }
  let setup : Service built.state Value := do
    let _ ← orReject outcome.reply
    if boot then startOrFailOpen (wiring built.rig stage session.clock)
    return .text built.rig.name
  let (entry, after) := scene.perform built.rig stage setup
  let entry := { entry with logs := logs ++ outcome.journal ++ entry.logs }
  match entry.result with
  | .ok _ => entry :: runSteps built.rig stage after session.steps
  | .error _ => [entry]

def failedSetup (fault : Fault) (logs : List LogLine) : Entry :=
  { result := .error (.fault fault), logs := logs }

def Session.run (session : Session) : List Entry :=
  match session.application with
  | none =>
    let built := session.store.build MemoryStore.storeName session.script session.clock
    let sink : Config.SinkChoice := if session.defaultSink then .builtIn else .supplied
    session.runBuilt built ⟨sink, false⟩ session.boot []
  | some application =>
    let planned := application.plan ()
    match planned.reply with
    | .ok (selection, stage) =>
      let built := buildSelection selection session.store session.script session.clock
      session.runBuilt built stage true planned.journal
    | .error fault =>
      if application.bringsStore then
        let built := session.store.build "custom" session.script session.clock
        let (calls, _) := built.rig.drain built.outcome.state
        [{ failedSetup fault (built.outcome.journal ++ planned.journal) with calls := calls }]
      else [failedSetup fault planned.journal]

-- ---------------------------------------------------------------------------
-- Previews
-- ---------------------------------------------------------------------------

structure Preview where
  selection : Selection
  /-- Whether a MongoDB store finds a model. -/
  hasModel : Bool := false
  calls : List Call := []

/-- Selects and builds the store of a configuration; a MongoDB store is built over a model
that records its calls. -/
def preview (config : Config) (connection : MongoStore.Connection) :
    Action LogLine Fault ScriptedMongo.State Preview := do
  let selection ← config.select
  match selection with
  | .mongo settings => fun s =>
    let outcome := MongoStore.attach ScriptedMongo.client settings connection .zero
      { client := s }
    let sent := outcome.state.client.sent.reverse.map Call.mongo
    ⟨outcome.reply.map fun _ => ⟨selection, outcome.state.hasModel, sent⟩,
      outcome.state.client, outcome.journal⟩
  | selection => return { selection := selection }

end SlidingTally.Rehearsal
