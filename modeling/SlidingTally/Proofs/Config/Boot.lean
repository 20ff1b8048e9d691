import SlidingTally.Config.Selection
import SlidingTally.Proofs.Service.Dormancy
import SlidingTally.Rehearsal.Rig

/-!
# Booting

A configuration that was validated and names one of the stores gets that store: selecting it does
not fail, and building it fails only with what the client or the connection fails with that it is
built over. Starting it does not fail either if its faults have a wording. Any other name passes the
validation and is refused when the store is selected. Main statements:
`Config.validate_ok_iff` and `boots_of_validate`.
-/

namespace SlidingTally

open SlidingTally.Action (reply_bind_ok)

-- ---------------------------------------------------------------------------
-- Validated configurations
-- ---------------------------------------------------------------------------

namespace Config

variable {σ : Type} {s : σ}

theorem refuse_ok {refusal : Refusal} {condition : Bool} :
    (refuse refusal condition s).reply = .ok u ↔ condition = false := by
  cases condition <;> simp [refuse]

@[simp] theorem refuse_state (refusal : Refusal) (condition : Bool) (s : σ) :
    (refuse refusal condition s).state = s := by
  cases condition <;> rfl

/-- What a configuration is checked for; its servers are read in the state of the check. -/
structure Accepted (config : Config) (requireMongoUri : Bool) (s : σ) : Prop where
  store : config.store.truthy = true
  servers : config.storeKind? = some .redis → ∃ addresses,
    (ServerList.parseValue config.serverEntries s).reply = .ok addresses ∧ addresses.isEmpty = false
  mongoUri : requireMongoUri = true → config.storeKind? = some .mongo → config.mongoUri.truthy = true
  customStore : config.storeKind? = some .custom → config.customStore.truthy = true
  timeout : timeoutIsValid config.operationTimeout = .ok true
  sink : config.exposeMetrics.truthy = true → config.metrics.truthy = false

private theorem checks_ok_iff {config : Config} {requireMongoUri : Bool} :
    ((requireMongoUri && decide (config.storeKind? = some .mongo) && !config.mongoUri.truthy) =
        false ∧
      (decide (config.storeKind? = some .custom) && !config.customStore.truthy) = false ∧
      ∃ valid, timeoutIsValid config.operationTimeout = .ok valid ∧ (!valid) = false ∧
        (config.exposeMetrics.truthy && config.metrics.truthy) = false) ↔
    (requireMongoUri = true → config.storeKind? = some .mongo → config.mongoUri.truthy = true) ∧
      (config.storeKind? = some .custom → config.customStore.truthy = true) ∧
      timeoutIsValid config.operationTimeout = .ok true ∧
      (config.exposeMetrics.truthy = true → config.metrics.truthy = false) := by
  simp

theorem validate_ok_iff {config : Config} {requireMongoUri : Bool} :
    (config.validate requireMongoUri s).reply = .ok () ↔ config.Accepted requireMongoUri s := by
  unfold validate
  simp only [reply_bind_ok, refuse_ok, refuse_state, exists_const]
  rw [Bool.not_eq_false']
  split
  · rename_i hredis
    simp only [reply_bind_ok, refuse_ok, refuse_state, Action.reply_ofExcept, exists_const,
      checks_ok_iff]
    constructor
    · rintro ⟨hstore, addresses, haddresses, hsome, hmongo, hcustom, htimeout, hsink⟩
      exact ⟨hstore, fun _ => ⟨addresses, haddresses, hsome⟩, hmongo, hcustom, htimeout, hsink⟩
    · rintro ⟨hstore, hservers, hmongo, hcustom, htimeout, hsink⟩
      obtain ⟨addresses, haddresses, hsome⟩ := hservers hredis
      exact ⟨hstore, addresses, haddresses, hsome, hmongo, hcustom, htimeout, hsink⟩
  · rename_i hother
    simp only [reply_bind_ok, refuse_ok, refuse_state, Action.reply_ofExcept, exists_const,
      checks_ok_iff]
    constructor
    · rintro ⟨hstore, hmongo, hcustom, htimeout, hsink⟩
      exact ⟨hstore, fun hredis => absurd hredis hother, hmongo, hcustom, htimeout, hsink⟩
    · rintro ⟨hstore, -, hmongo, hcustom, htimeout, hsink⟩
      exact ⟨hstore, hmongo, hcustom, htimeout, hsink⟩

-- ---------------------------------------------------------------------------
-- Selecting
-- ---------------------------------------------------------------------------

end Config

theorem StoreKind.ofValue?_name (kind : StoreKind) : ofValue? (.text kind.name) = some kind := by
  cases kind <;> simp [ofValue?, Value.text?, all, name]

theorem StoreKind.ofValue?_eq_none (h : ∀ kind : StoreKind, kind.name ≠ text) :
    ofValue? (.text text) = none := by
  simp [ofValue?, Value.text?, h]

def Selection.kind : Selection → StoreKind
  | .redis _ => .redis
  | .mongo _ => .mongo
  | .memory _ => .memory
  | .custom => .custom
  | .inert => .custom

namespace Config

theorem storeOption_ok {config : Config} (hoptions : config.storeOptions ≠ .null) (name : String) :
    ∃ value, config.storeOption name = .ok value := by
  unfold storeOption
  cases h : config.storeOptions with
  | null => exact absurd h hoptions
  | _ => exact ⟨_, rfl⟩

theorem select_of_accepted {config : Config} {requireMongoUri : Bool}
    (h : config.Accepted requireMongoUri s) (hoptions : config.storeOptions ≠ .null)
    (hkind : config.storeKind? = some kind) :
    ∃ selection, (config.select s).reply = .ok selection ∧ selection.kind = kind := by
  unfold select
  rw [hkind]
  cases kind with
  | mongo =>
    obtain ⟨collection, hcollection⟩ := storeOption_ok hoptions "collectionName"
    exact ⟨_, reply_bind_ok.mpr ⟨collection, by rw [hcollection]; rfl, rfl⟩, rfl⟩
  | redis =>
    obtain ⟨addresses, haddresses, -⟩ := h.servers hkind
    obtain ⟨options, hredis⟩ := storeOption_ok hoptions "redis"
    refine ⟨.redis ⟨addresses, options.field "password", .ofOptions options, config.timeout⟩,
      reply_bind_ok.mpr ⟨addresses, haddresses, ?_⟩, rfl⟩
    exact reply_bind_ok.mpr ⟨options, by rw [hredis]; rfl, rfl⟩
  | memory =>
    obtain ⟨options, hmemory⟩ := storeOption_ok hoptions "memory"
    exact ⟨_, reply_bind_ok.mpr ⟨options, by rw [hmemory]; rfl, rfl⟩, rfl⟩
  | custom =>
    have hcustom := h.customStore hkind
    cases config.suppliesStore with
    | true => exact ⟨.custom, rfl, rfl⟩
    | false =>
      dsimp only
      rw [if_neg (by decide), if_pos hcustom]
      exact ⟨.inert, rfl, rfl⟩

theorem select_unsupported {config : Config} {name : String} (hstore : config.store = .text name)
    (hkind : config.storeKind? = none) :
    (config.select s).reply = .error (.plain ("Unsupported counter store: " ++ name)) := by
  unfold select
  rw [hkind, hstore, Value.asText_text]
  rfl

end Config

-- ---------------------------------------------------------------------------
-- Building
-- ---------------------------------------------------------------------------

/-- What a selected store is built over: the client of a plan, a database with or without a
connection to it, and the store that the caller brings, each with its state. -/
structure Surroundings where
  {κ μ σ : Type}
  redis : RedisStore.Plan → RedisStore.Client κ
  redisState : κ
  mongo : MongoStore.Client μ
  mongoState : μ
  connection : MongoStore.Connection
  supplied : CounterStore σ
  suppliedState : σ

structure Construction where
  σ : Type
  store : CounterStore σ
  outcome : Outcome LogLine Fault σ Unit

namespace Selection

def construct (around : Surroundings) (now : Binary64) : Selection → Construction
  | .redis plan =>
    ⟨_, RedisStore.store (around.redis plan) plan.settings,
      RedisStore.subscribe (around.redis plan) now { client := around.redisState }⟩
  | .mongo settings =>
    ⟨_, MongoStore.store around.mongo settings,
      MongoStore.attach around.mongo settings around.connection now
        { client := around.mongoState }⟩
  | .memory options => ⟨_, MemoryStore.store options, ⟨.ok (), {}, []⟩⟩
  | .custom => ⟨_, around.supplied, ⟨.ok (), around.suppliedState, []⟩⟩
  | .inert => ⟨Unit, InertStore.store "this.store", ⟨.ok (), (), []⟩⟩

def Refused (around : Surroundings) (now : Binary64) (fault : Fault) : Selection → Prop
  | .redis plan => ((around.redis plan).send now .onError around.redisState).1 = .error fault
  | .mongo settings => around.connection = .fresh ∧
    (around.mongo.send now (.defineModel settings.collection) around.mongoState).1 = .error fault
  | _ => False

theorem construct_error_iff {selection : Selection} {around : Surroundings} {now : Binary64} :
    (selection.construct around now).outcome.reply = .error fault ↔
      selection.Refused around now fault := by
  cases selection with
  | redis plan =>
    simp only [construct, Refused, RedisStore.subscribe, Action.run_bind, RedisStore.send]
    cases ((around.redis plan).send now .onError around.redisState).1 <;> simp
  | mongo settings =>
    simp only [construct, Refused, MongoStore.attach]
    cases around.connection with
    | none => simp
    | existing => simp
    | fresh =>
      simp only [Action.run_bind, MongoStore.send]
      cases (around.mongo.send now (.defineModel settings.collection) around.mongoState).1 <;> simp
  | memory options => simp [construct, Refused]
  | custom => simp [construct, Refused]
  | inert => simp [construct, Refused]

end Selection

def Rehearsal.surroundings (connection : MongoStore.Connection) (script : Rehearsal.Script) :
    Surroundings where
  redis := fun plan => Rehearsal.ScriptedRedis.client (plan.mode = .cluster)
  redisState := { status := "wait", script := script }
  mongo := Rehearsal.ScriptedMongo.client
  mongoState := { script := script }
  connection := connection
  supplied := Rehearsal.ScriptedMemory.store {}
  suppliedState := { script := script }

/-- A session builds a store that its caller does not bring in just this way. -/
theorem Rehearsal.buildSelection_eq {selection : Selection} (h : selection ≠ .custom)
    (spec : Rehearsal.StoreSpec) (script : Rehearsal.Script) (now : Binary64) :
    let built := Rehearsal.buildSelection selection spec script now
    selection.construct (Rehearsal.surroundings spec.connection script) now =
      ⟨built.state, built.rig.store, built.outcome⟩ := by
  cases selection with
  | custom => exact absurd rfl h
  | _ => rfl

-- ---------------------------------------------------------------------------
-- Booting
-- ---------------------------------------------------------------------------

theorem startOrFailOpen_ok {w : Wiring σ}
    (h : ∀ fault, (w.store w.now .start s).reply = .error fault → fault.message?.isSome = true) :
    (startOrFailOpen w s).reply = .ok () := by
  cases hstart : (w.store w.now .start s).reply with
  | ok value => exact reply_bind_ok.mpr ⟨.ok value, by simp [run_ask, hstart], rfl⟩
  | error fault => exact (startOrFailOpen_error hstart).1.mpr (h fault hstart)

/-- The store comes up: building it fails only with what a call of its own was refused with, and
starting it resolves. -/
structure Construction.Boots (built : Construction) (refused : Fault → Prop) : Prop where
  builds : built.outcome.reply = .error fault → refused fault
  starts : (∀ fault, (built.store now .start s).reply = .error fault →
      fault.message?.isSome = true) →
    (startOrFailOpen { store := built.store, now := now } s).reply = .ok ()

/-- What was validated boots if it names a store, whatever the store is built over; any other name
is refused when the store is selected, and for its name alone. -/
theorem boots_of_validate {config : Config} {requireMongoUri : Bool} {name : String} {s : σ}
    (hstore : config.store = .text name) (hoptions : config.storeOptions ≠ .null)
    (hvalid : (config.validate requireMongoUri s).reply = .ok ()) :
    (∀ kind : StoreKind, kind.name = name →
      ∃ selection, (config.select s).reply = .ok selection ∧ selection.kind = kind ∧
        ∀ around now, (selection.construct around now).Boots (selection.Refused around now)) ∧
    ((∀ kind : StoreKind, kind.name ≠ name) →
      (config.select s).reply = .error (.plain ("Unsupported counter store: " ++ name))) := by
  refine ⟨fun kind hname => ?_, fun hnone => ?_⟩
  · have hkind : config.storeKind? = some kind := by
      rw [Config.storeKind?, hstore, ← hname, StoreKind.ofValue?_name]
    obtain ⟨selection, hselect, hsame⟩ :=
      Config.select_of_accepted (Config.validate_ok_iff.mp hvalid) hoptions hkind
    exact ⟨selection, hselect, hsame, fun around now =>
      ⟨Selection.construct_error_iff.mp, fun {later _} =>
        startOrFailOpen_ok (w := { store := _, now := later })⟩⟩
  · have hkind : config.storeKind? = none := by
      rw [Config.storeKind?, hstore, StoreKind.ofValue?_eq_none hnone]
    exact Config.select_unsupported hstore hkind

/-- Without a connection a validated MongoDB store is built, and starting it resolves though the
store itself fails to start. -/
theorem boots_of_validate_unconnected :
    let config : Config := { store := .text "mongo" }
    let built := (Selection.mongo {}).construct (Rehearsal.surroundings .none []) 0
    (config.validate false ()).reply = .ok () ∧ (config.select ()).reply = .ok (.mongo {}) ∧
      built.outcome.reply = .ok () ∧
      (∃ fault, (built.store 0 .start built.outcome.state).reply = .error fault) ∧
      (startOrFailOpen { store := built.store, now := 0 } built.outcome.state).reply = .ok () := by
  intro config built
  have hvalid : (config.validate false ()).reply = .ok () := rfl
  have hmongo : (config.select ()).reply = .ok (.mongo {}) := rfl
  obtain ⟨selection, hselect, -, hboots⟩ :=
    (boots_of_validate rfl (fun hnull => by cases hnull) hvalid).1 .mongo rfl
  cases hselect.symm.trans hmongo
  have hbuilt := hboots (Rehearsal.surroundings .none []) 0
  refine ⟨hvalid, hmongo, rfl, ⟨_, rfl⟩, hbuilt.starts fun fault hfault => ?_⟩
  cases hfault
  rfl

/-- A name that no store has passes the validation and is refused by the selection. -/
theorem select_unsupported_of_validate :
    let config : Config := { store := .text "foo" }
    (config.validate true ()).reply = .ok () ∧
      (config.select ()).reply = .error (.plain "Unsupported counter store: foo") :=
  ⟨rfl, rfl⟩

end SlidingTally
