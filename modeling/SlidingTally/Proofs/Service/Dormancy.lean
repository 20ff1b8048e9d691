import SlidingTally.Proofs.Service.Metering
import SlidingTally.Store.Memory
import SlidingTally.Store.Mongo
import SlidingTally.Store.Redis

/-!
# Stores that never started

A store whose start fails stays uninitialized, whatever it is asked for and even once it was
closed: each request replies with its default, is counted as skipped and sends nothing to the
database behind the store. Main statement: `failOpen_forever`.
-/

namespace SlidingTally

open SlidingTally.Action (outcomes stateAfter)

-- ---------------------------------------------------------------------------
-- Stores of each kind
-- ---------------------------------------------------------------------------

/-- A client's behaviour with a record of the commands that it was sent. -/
def recorded {γ κ : Type} (send : Binary64 → γ → κ → Except Fault Value × κ) (now : Binary64)
    (command : γ) (s : κ × List γ) : Except Fault Value × (κ × List γ) :=
  ((send now command s.1).1, (send now command s.1).2, s.2 ++ [command])

theorem countP_recorded {γ κ : Type} {send : Binary64 → γ → κ → Except Fault Value × κ}
    {isData : γ → Bool} {command : γ} (h : isData command = false) (now : Binary64) (s : κ × List γ) :
    (recorded send now command s).2.2.countP isData = s.2.countP isData := by
  simp [recorded, h]

def RedisStore.Client.recorded (client : RedisStore.Client κ) :
    RedisStore.Client (κ × List RedisStore.Command) where
  isCluster := client.isCluster
  status s := client.status s.1
  send := SlidingTally.recorded client.send

def MongoStore.Client.recorded (client : MongoStore.Client κ) :
    MongoStore.Client (κ × List MongoStore.Command) where
  collection := client.collection
  send := SlidingTally.recorded client.send

def MongoStore.Command.isData : MongoStore.Command → Bool
  | .defineModel _ => false
  | .createIndex => false
  | _ => true

inductive Adapter : Type → Type 1
  /-- The store in memory, where starting it ends in `started` and does nothing else. -/
  | memory (options : MemoryStore.Options) (started : Except Fault Value) :
    Adapter MemoryStore.State
  | redis {κ : Type} (client : RedisStore.Client κ) (keyScope : String) :
    Adapter (RedisStore.State (κ × List RedisStore.Command))
  | mongo {κ : Type} (client : MongoStore.Client κ) (settings : MongoStore.Settings) :
    Adapter (MongoStore.State (κ × List MongoStore.Command))

namespace Adapter

def store : Adapter σ → CounterStore σ
  | .memory options started => fun now call =>
    match call with
    | .start => Action.ofExcept started
    | call => MemoryStore.store options now call
  | .redis client keyScope => RedisStore.store client.recorded { keyScope := .text keyScope }
  | .mongo client settings => MongoStore.store client.recorded settings

def isInitialized : Adapter σ → σ → Bool
  | .memory _ _ => MemoryStore.State.initialized
  | .redis _ _ => RedisStore.State.initialized
  | .mongo _ _ => MongoStore.State.initialized

/-- How many commands that read or write keys the client was sent; there is none in memory. -/
def dataSent : Adapter σ → σ → Nat
  | .memory _ _, _ => 0
  | .redis _ _, s => s.client.2.countP RedisStore.Command.isData
  | .mongo _ _, s => s.client.2.countP MongoStore.Command.isData

end Adapter

-- ---------------------------------------------------------------------------
-- What a store can do while it is uninitialized
-- ---------------------------------------------------------------------------

open SlidingTally.Action (Triple)

def Adapter.Dormant (adapter : Adapter σ) (sent : Nat) (s : σ) : Prop :=
  adapter.isInitialized s = false ∧ adapter.dataSent s = sent

namespace RedisStore

variable {client : Client κ} {settings : Settings} {now : Binary64} {sent : Nat}
variable {s : State (κ × List Command)}

def Dormant (sent : Nat) (s : State (κ × List Command)) : Prop :=
  s.initialized = false ∧ s.client.2.countP Command.isData = sent

theorem triple_send {command : Command} (hcommand : command.isData = false) (h : Dormant sent s) :
    Triple (send client.recorded now command) s j (fun _ s' _ => Dormant sent s')
      fun _ s' _ => Dormant sent s' := by
  have h' : Dormant sent (send client.recorded now command s).state :=
    ⟨h.1, (countP_recorded hcommand now s.client).trans h.2⟩
  unfold Triple
  split
  · exact h'
  · exact h'

theorem triple_connect (h : Dormant sent s) :
    Triple (connect client.recorded now) s j (fun _ s' _ => Dormant sent s')
      fun _ s' _ => Dormant sent s' := by
  have hping {s : State (κ × List Command)} {j : List LogLine} (h : Dormant sent s) :
      Triple (do let _ ← send client.recorded now .ping; return ()) s j
        (fun _ s' _ => Dormant sent s') fun _ s' _ => Dormant sent s' :=
    (triple_send rfl h).bind fun _ _ _ h => Triple.pure h
  refine Triple.bind (Q := fun _ s' _ => Dormant sent s') (Triple.view h) ?_
  intro status s' j' h'
  split
  · exact (triple_send rfl h').bind fun _ _ _ h => hping h
  · exact hping h'

theorem triple_start (keyScope : String) (h : Dormant sent s) :
    Triple (start client.recorded { keyScope := .text keyScope } now) s j (fun _ _ _ => True)
      fun _ s' _ => Dormant sent s' := by
  refine Triple.bind (Q := fun reply s' _ => reply.toBool = false → Dormant sent s') ?_ ?_
  · exact Triple.attempt ((triple_connect h).mono (fun _ _ _ _ => nofun) fun _ _ _ h' _ => h')
  · intro reply s' j' h'
    cases reply with
    | ok _ =>
      rw [Value.asText_text]
      exact Triple.bind (Q := fun _ _ _ => True) (Triple.update trivial) fun _ _ _ _ =>
        Triple.bind (Q := fun _ _ _ => True) (Triple.pure trivial) fun _ _ _ _ =>
          Triple.bind (Q := fun _ _ _ => True) (Triple.record trivial) fun _ _ _ _ =>
            Triple.pure trivial
    | error fault =>
      exact (triple_send rfl (h' rfl)).bind fun _ _ _ h => Triple.fail h

theorem triple_close (h : Dormant sent s) :
    Triple (close client.recorded now) s j (fun _ s' _ => Dormant sent s')
      fun _ s' _ => Dormant sent s' := by
  refine Triple.bind (Q := fun initialized s' _ => initialized = false ∧ Dormant sent s')
    (Triple.view ⟨h.1, h⟩) ?_
  rintro _ s' j' ⟨rfl, h'⟩
  exact (triple_send rfl h').bind fun _ _ _ h => Triple.pure h

end RedisStore

namespace MongoStore

variable {client : Client κ} {now : Binary64} {sent : Nat}
variable {s : State (κ × List Command)}

def Dormant (sent : Nat) (s : State (κ × List Command)) : Prop :=
  s.initialized = false ∧ s.client.2.countP Command.isData = sent

theorem triple_send {command : Command} (hcommand : command.isData = false) (h : Dormant sent s) :
    Triple (send client.recorded now command) s j (fun _ s' _ => Dormant sent s')
      fun _ s' _ => Dormant sent s' := by
  have h' : Dormant sent (send client.recorded now command s).state :=
    ⟨h.1, (countP_recorded hcommand now s.client).trans h.2⟩
  unfold Triple
  split
  · exact h'
  · exact h'

theorem triple_start (h : Dormant sent s) :
    Triple (start client.recorded now) s j (fun _ _ _ => True) fun _ s' _ => Dormant sent s' := by
  refine Triple.bind (Q := fun _ s' _ => Dormant sent s') (Triple.view h) ?_
  intro hasModel s' j' h'
  split
  · refine (triple_send rfl h').bind fun _ _ _ _ => ?_
    exact Triple.bind (Q := fun _ _ _ => True) (Triple.update trivial) fun _ _ _ _ =>
      Triple.bind (Q := fun _ _ _ => True) (Triple.record trivial) fun _ _ _ _ =>
        Triple.pure trivial
  · refine Triple.bind (Q := fun _ s' _ => Dormant sent s') (Triple.record h') ?_
    exact fun _ _ _ h => Triple.fail h

end MongoStore

section
variable {σ : Type} {adapter : Adapter σ} {now : Binary64} {sent : Nat} {s : σ}

theorem Adapter.Dormant.run_isInitialized (h : adapter.Dormant sent s) :
    adapter.store now .isInitialized s = ⟨.ok (.bool false), s, []⟩ := by
  have hreply {b : Bool} (hb : b = false) :
      (⟨.ok (.bool b), s, []⟩ : Outcome LogLine Fault σ Value) = ⟨.ok (.bool false), s, []⟩ := by
    rw [hb]
  cases adapter with
  | memory options started => exact hreply h.1
  | redis client keyScope => exact hreply h.1
  | mongo client settings => exact hreply h.1

theorem Adapter.Dormant.start (h : adapter.Dormant sent s)
    (hstart : (adapter.store now .start s).reply = .error fault) :
    adapter.Dormant sent (adapter.store now .start s).state := by
  have hfailed (htriple : Triple (adapter.store now .start) s [] (fun _ _ _ => True)
      fun _ s' _ => adapter.Dormant sent s') : adapter.Dormant sent (adapter.store now .start s).state := by
    simpa only [Triple, hstart] using htriple
  cases adapter with
  | memory options started =>
    refine hfailed ?_
    cases started with
    | ok value => exact Triple.pure trivial
    | error fault => exact Triple.fail h
  | redis client keyScope => exact hfailed (RedisStore.triple_start keyScope h)
  | mongo client settings => exact hfailed (MongoStore.triple_start h)

theorem Adapter.Dormant.close (h : adapter.Dormant sent s) :
    adapter.Dormant sent (adapter.store now .close s).state := by
  cases adapter with
  | memory options started => exact ⟨rfl, h.2⟩
  | redis client keyScope =>
    exact Triple.always (P := fun s' _ => RedisStore.Dormant sent s') (RedisStore.triple_close h)
  | mongo client settings => exact ⟨rfl, h.2⟩

end

-- ---------------------------------------------------------------------------
-- Requests to it
-- ---------------------------------------------------------------------------

namespace Request

def default : Request ω → Value
  | .increment _ _ _ => .number 0
  | .query _ _ => .number 0
  | .getText _ fallback => fallback.orDefault (.text "")
  | .getInteger _ fallback => fallback.orDefault (.number .zero)
  | .getFloat _ fallback => fallback.orDefault (.number .zero)
  | .set _ _ _ => .undefined

/-- A request that is not served: it replies with its default, is counted as skipped, once, and
asks the store for nothing but whether it is initialized. -/
structure FailsOpen (request : Request ω) (o : Outcome Event Halt σ Value) : Prop where
  reply : o.reply = .ok request.default
  metrics : metrics o.journal = [request.ended .skip]
  answers : answers o.journal = [(.isInitialized, .ok (.bool false))]

end Request

section
variable {σ : Type} {w : Wiring σ} {s : σ}
variable (h : w.store w.now .isInitialized s = ⟨.ok (.bool false), s, []⟩)
variable (hrefusal : ∀ metric, w.refusal metric = none)

include h

theorem run_demand_isInitialized :
    demand w .isInitialized s =
      ⟨.ok (.bool false), s, [.call .isInitialized (.ok (.bool false))]⟩ := by
  have hask : ask w .isInitialized s =
      ⟨.ok (.ok (.bool false)), s, [.call .isInitialized (.ok (.bool false))]⟩ := by
    rw [run_ask, h]
    rfl
  rw [demand, Action.run_bind_ok hask]
  rfl

theorem run_servable (operation : String) (name window : Value) :
    Counter.servable w operation name window s = ⟨.ok none, s,
      [.call .isInitialized (.ok (.bool false)),
        .log ⟨.debug, .counter, s!"Counter store not initialized, {operation} skipped"⟩]⟩ := by
  rw [Counter.servable, Action.run_bind_ok (run_demand_isInitialized h)]
  rfl

include hrefusal

theorem failsOpen_serve (request : Request Binary64) :
    request.FailsOpen (request.serve w s) ∧ (request.serve w s).state = s := by
  have hobserve (metric : Metric) : observe w metric s = ⟨.ok (), s, [.metric metric]⟩ :=
    run_observe (hrefusal metric) s
  have hread (operation : KeyValueOperation) (key : Key) (fallback : Value)
      (decode : Value → Except Fault Value) :
      KeyValue.read w operation key fallback decode s = ⟨.ok fallback, s,
        [.call .isInitialized (.ok (.bool false)), .metric (.keyValue operation .skip)]⟩ := by
    rw [KeyValue.read, Action.run_bind_ok (run_demand_isInitialized h)]
    simp [Value.truthy, KeyValue.read.finish, Action.run_bind_ok (hobserve _)]
  cases request with
  | increment name window maxTtl =>
    rw [Request.serve, Counter.increment, Action.run_bind_ok (run_servable h _ _ _)]
    dsimp only
    rw [Action.run_bind_ok (hobserve _)]
    exact ⟨⟨rfl, rfl, rfl⟩, rfl⟩
  | query name window =>
    rw [Request.serve, Counter.query, Action.run_bind_ok (run_servable h _ _ _)]
    dsimp only
    rw [Action.run_bind_ok (hobserve _)]
    exact ⟨⟨rfl, rfl, rfl⟩, rfl⟩
  | getText key fallback =>
    rw [Request.serve, KeyValue.getText, hread]
    exact ⟨⟨rfl, rfl, rfl⟩, rfl⟩
  | getInteger key fallback =>
    rw [Request.serve, KeyValue.getInteger, hread]
    exact ⟨⟨rfl, rfl, rfl⟩, rfl⟩
  | getFloat key fallback =>
    rw [Request.serve, KeyValue.getFloat, hread]
    exact ⟨⟨rfl, rfl, rfl⟩, rfl⟩
  | set key value ttl =>
    have hset : KeyValue.set w key value ttl s = ⟨.ok (), s,
        [.call .isInitialized (.ok (.bool false)), .metric (.keyValue .set .skip)]⟩ := by
      rw [KeyValue.set, Action.run_bind_ok (run_demand_isInitialized h)]
      simp [Value.truthy, KeyValue.set.finish, hobserve]
    rw [Request.serve, Action.run_bind_ok hset]
    exact ⟨⟨rfl, rfl, rfl⟩, rfl⟩

end

-- ---------------------------------------------------------------------------
-- A whole run
-- ---------------------------------------------------------------------------

inductive Use where
  | serve (now : Binary64) (request : Request Binary64)
  | close (now : Binary64)

namespace Use

def run (store : CounterStore σ) : Use → Service σ Value
  | .serve now request => Request.serveAt store (now, request)
  | .close now => demand { store := store, now := now } .close

/-- Requests fail open, and closing the store is all that is asked for by closing it. -/
def FailsOpen : Use → Outcome Event Halt σ Value → Prop
  | .serve _ request, o => request.FailsOpen o
  | .close _, o => metrics o.journal = [] ∧ (answers o.journal).map (·.1) = [.close]

theorem failsOpen_run {adapter : Adapter σ} (use : Use) (h : adapter.Dormant sent s) :
    use.FailsOpen (use.run adapter.store s) ∧
      adapter.Dormant sent (use.run adapter.store s).state := by
  cases use with
  | serve now request =>
    obtain ⟨hopen, hstate⟩ := failsOpen_serve (w := { store := adapter.store, now := now })
      h.run_isInitialized (fun _ => rfl) request
    exact ⟨hopen, hstate.symm ▸ h⟩
  | close now =>
    refine Triple.always (P := fun s' j => (metrics j = [] ∧ (answers j).map (·.1) = [.close]) ∧
      adapter.Dormant sent s') ?_
    refine triple_demand (fun value hvalue => ?_) fun fault hfault => ?_
    · exact ⟨by simp, h.close⟩
    · exact ⟨by simp, h.close⟩

end Use

structure StartFailed (w : Wiring σ) (fault : Fault) (s s' : σ) (j : List Event) : Prop where
  state : s' = (w.store w.now .start s).state
  answers : answers j = [(.start, .error fault)]
  metrics : metrics j = []

/-- A start that fails is not tried again, and only a failure without a wording is passed on. -/
theorem startOrFailOpen_error {w : Wiring σ} (hstart : (w.store w.now .start s).reply = .error fault) :
    ((startOrFailOpen w s).reply = .ok () ↔ fault.message?.isSome = true) ∧
      StartFailed w fault s (startOrFailOpen w s).state (startOrFailOpen w s).journal := by
  have htriple : Triple (startOrFailOpen w) s []
      (fun _ s' j => fault.message?.isSome = true ∧ StartFailed w fault s s' j)
      fun _ s' j => fault.message? = none ∧ StartFailed w fault s s' j := by
    refine Triple.bind (Q := fun reply s' j => reply = .error fault ∧ StartFailed w fault s s' j)
      (triple_ask ⟨hstart, rfl, by simp [hstart], by simp⟩) ?_
    rintro _ s' j ⟨rfl, hs', hanswers, hmetrics⟩
    refine triple_explain (fun text htext => ?_) fun hnone => ⟨hnone, hs', hanswers, hmetrics⟩
    exact ⟨Option.isSome_iff_exists.mpr ⟨text, htext⟩, hs', by simp [hanswers], by simp [hmetrics]⟩
  unfold Triple at htriple
  split at htriple
  · rename_i hreply
    exact ⟨iff_of_true hreply htriple.1, htriple.2⟩
  · rename_i halt hreply
    refine ⟨iff_of_false (fun hok => ?_) (fun hsome => ?_), htriple.2⟩
    · cases hreply.symm.trans hok
    · rw [htriple.1] at hsome
      cases hsome

/-- A store whose start fails fails open for good: starting it is tried once and resolves if the
failure can be worded, and whatever comes later, every request gets its default and a skip status,
the store is asked for no key, and its client is sent no command for one. -/
theorem failOpen_forever (adapter : Adapter σ) {s : σ} {now : Binary64} {fault : Fault}
    (hs : adapter.isInitialized s = false)
    (hstart : (adapter.store now .start s).reply = .error fault) (uses : List Use) :
    let boot := startOrFailOpen { store := adapter.store, now := now } s
    (boot.reply = .ok () ↔ fault.message?.isSome = true) ∧
      answers boot.journal = [(.start, .error fault)] ∧ metrics boot.journal = [] ∧
      List.Forall₂ Use.FailsOpen uses (outcomes (Use.run adapter.store) boot.state uses) ∧
      adapter.dataSent (stateAfter (Use.run adapter.store) boot.state uses) = adapter.dataSent s := by
  intro boot
  have hdormant : adapter.Dormant (adapter.dataSent s) s := ⟨hs, rfl⟩
  obtain ⟨hreply, hleft⟩ :=
    startOrFailOpen_error (w := { store := adapter.store, now := now }) hstart
  have hboot : adapter.Dormant (adapter.dataSent s) boot.state :=
    hleft.state.symm ▸ hdormant.start hstart
  obtain ⟨houtcomes, hafter⟩ := Action.forall_outcomes_of_keeps
    (I := adapter.Dormant (adapter.dataSent s)) (fun use _ h => Use.failsOpen_run use h) uses _ hboot
  exact ⟨hreply, hleft.answers, hleft.metrics, houtcomes, hafter.2⟩

/-- A cluster whose nodes accept connections and then answer no PING. -/
def silentCluster : RedisStore.Client Unit where
  isCluster := true
  status _ := "wait"
  send _ command s :=
    match command with
    | .ping => (.error (.plain "Connection is closed."), s)
    | _ => (.ok .null, s)

theorem failOpen_forever_cluster :
    let adapter := Adapter.redis silentCluster "velocity:"
    let boot := startOrFailOpen { store := adapter.store, now := 0 } { client := ((), []) }
    let uses := [.serve 1 (.increment "a" 60 .undefined), .close 2, .serve 3 (.query "a" .nan),
      .close 4, .serve 5 (.getText (.text "a") (.text "d"))]
    boot.reply = .ok () ∧
      List.Forall₂ Use.FailsOpen uses (outcomes (Use.run adapter.store) boot.state uses) ∧
      adapter.dataSent (stateAfter (Use.run adapter.store) boot.state uses) = 0 := by
  intro adapter boot uses
  have hstart : (adapter.store 0 .start { client := ((), []) }).reply =
      .error (.plain "Connection is closed.") := rfl
  have h := failOpen_forever adapter rfl hstart uses
  exact ⟨h.1.mpr rfl, h.2.2.2⟩

/-- What cannot be worded is passed on by a start, and the services never come to be. -/
theorem startOrFailOpen_unworded :
    let adapter := Adapter.memory {} (.error (.thrown (.record [(Value.textField, .number 1)])))
    (∃ fault, (adapter.store 0 .start {}).reply = .error fault) ∧
      ¬(startOrFailOpen { store := adapter.store, now := 0 } {}).reply = .ok () := by
  intro adapter
  refine ⟨⟨_, rfl⟩, ?_⟩
  have hreply : (startOrFailOpen { store := adapter.store, now := 0 } {}).reply =
      .error (.fault .unwritable) := rfl
  rw [hreply]
  nofun

end SlidingTally
