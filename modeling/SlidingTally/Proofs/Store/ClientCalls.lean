import SlidingTally.Proofs.Store.DocumentDatabase
import SlidingTally.Proofs.Store.RedisServer

/-!
# What stores ask their clients

A call of a store that is initialized comes to commands, which its client is sent one after
another, and replies by their answers. Main statements: `RedisStore.run_on` and
`MongoStore.run_on` for a call on one key, and `run_getMulti_single`, `run_getMulti_warning` and
`run_getMulti` for one on many.
-/

namespace SlidingTally

-- ---------------------------------------------------------------------------
-- Calls
-- ---------------------------------------------------------------------------

inductive KeyCall where
  | increment
  | addIfAbsent (value : Value) (ttl : Binary64)
  | touch (ttl : Binary64)
  | set (value : Value) (ttl : Binary64)
  | get

def KeyCall.call (key : String) : KeyCall → StoreCall
  | .increment => .increment (.text key)
  | .addIfAbsent value ttl => .addIfAbsent (.text key) value (.number ttl)
  | .touch ttl => .touch (.text key) (.number ttl)
  | .set value ttl => .set (.text key) value (.number ttl)
  | .get => .get (.text key)

/-- A call for data, its arguments of the kinds that they should be. -/
inductive DataCall where
  | on (key : String) (act : KeyCall)
  | getMulti (keys : List String)

def DataCall.call : DataCall → StoreCall
  | .on key act => act.call key
  | .getMulti keys => .getMulti (.list (keys.map .text))

-- ---------------------------------------------------------------------------
-- Answers
-- ---------------------------------------------------------------------------

def exchange (send : Binary64 → γ → κ → Except Fault Value × κ) (now : Binary64) :
    List γ → κ → List (Except Fault Value) × κ
  | [], s => ([], s)
  | command :: rest, s =>
    let first := send now command s
    let others := exchange send now rest first.2
    (first.1 :: others.1, others.2)

theorem length_exchange (send : Binary64 → γ → κ → Except Fault Value × κ) (now : Binary64)
    (commands : List γ) (s : κ) : (exchange send now commands s).1.length = commands.length := by
  induction commands generalizing s with
  | nil => rfl
  | cons command rest ih => simp [exchange, ih]

-- ---------------------------------------------------------------------------
-- Redis
-- ---------------------------------------------------------------------------

namespace RedisStore

def commandFor (fullKey : String) : KeyCall → Command
  | .increment => .incr fullKey
  | .addIfAbsent value ttl => .set fullKey value (some (milliseconds ttl)) true
  | .touch ttl => .pexpire fullKey (milliseconds ttl)
  | .set value ttl =>
    .set fullKey value (if Binary64.zero.lt ttl then some (milliseconds ttl) else none) false
  | .get => .get fullKey

def operationOf : KeyCall → String
  | .increment => "INCR"
  | .addIfAbsent _ _ => "SET NX"
  | .touch _ => "PEXPIRE"
  | .set _ _ => "SET"
  | .get => "GET"

def replyTo (answer : Value) : KeyCall → Value
  | .increment => answer
  | .addIfAbsent _ _ => .bool (answer.text? == some "OK")
  | .touch _ => (if answer.isNumber 1 then TouchResult.touched else TouchResult.notFound).value
  | .set _ _ => .undefined
  | .get => answer

variable {κ : Type} {client : Client κ} {now : Binary64} {s : State κ}

theorem run_require (hinit : s.initialized = true) : require s = ⟨.ok (), s, []⟩ := by
  unfold require
  rw [Action.run_bind_ok (Action.run_view State.initialized s), hinit]
  rfl

theorem run_call (client : Client κ) (now : Binary64) (operation : String) {command : Command}
    {made : Except Fault Command} (hmade : made = .ok command) (s : State κ) :
    call client now operation made s =
      ⟨(client.send now command s.client).1.mapError (Fault.ofClient operation),
        { s with client := (client.send now command s.client).2 }, []⟩ := by
  subst hmade
  have hsend : ((do send client now (← Action.ofExcept (.ok command))) :
      StoreAction (State κ) Value) s = send client now command s :=
    congrFun (pure_bind command (send client now)) s
  unfold call Action.mapFault
  rw [hsend]
  rfl

theorem run_on (client : Client κ) (scope : String) (now : Binary64) (key : String) (act : KeyCall)
    (hinit : s.initialized = true) :
    store client ⟨.text scope⟩ now (act.call key) s =
      ⟨do
          let answer ← (client.send now (commandFor (scope ++ key) act) s.client).1.mapError
            (Fault.ofClient (operationOf act))
          return replyTo answer act,
        { s with client := (client.send now (commandFor (scope ++ key) act) s.client).2 }, []⟩ := by
  have hkey : (Settings.mk (.text scope)).fullKey (Key.text key).value = .ok (scope ++ key) :=
    RedisServer.fullKey_text scope key
  have hcall {made : Except Fault Command} (hmade : made = .ok (commandFor (scope ++ key) act)) :
      (do return replyTo (← call client now (operationOf act) made) act :
        StoreAction (State κ) Value) s = _ :=
    Action.run_bind_except (run_call client now (operationOf act) hmade s) fun answer => rfl
  have hthen (rest : StoreAction (State κ) Value) : (do require; rest) s = rest s :=
    Action.run_bind_quiet (run_require hinit) fun _ => rest
  -- An increment and a read pass the answer on as it is, with no step after the command.
  cases act with
  | increment =>
    have hmade : ((Settings.mk (.text scope)).fullKey (Key.text key).value).map Command.incr =
        .ok (.incr (scope ++ key)) := by rw [hkey]; rfl
    exact (hthen _).trans ((congrFun (bind_pure _) s).symm.trans (hcall hmade))
  | addIfAbsent value ttl => exact (hthen _).trans (hcall (by rw [hkey]; rfl))
  | touch ttl => exact (hthen _).trans (hcall (by rw [hkey]; rfl))
  | set value ttl =>
    refine (hthen _).trans ?_
    rw [hkey]
    exact hcall rfl
  | get =>
    have hmade : ((Settings.mk (.text scope)).fullKey (Key.text key).value).map Command.get =
        .ok (.get (scope ++ key)) := by rw [hkey]; rfl
    exact (hthen _).trans ((congrFun (bind_pure _) s).symm.trans (hcall hmade))

theorem run_getMulti_nil (client : Client κ) (settings : Settings) (now : Binary64)
    (hinit : s.initialized = true) :
    store client settings now (.getMulti (.list [])) s = ⟨.ok (.table []), s, []⟩ := by
  refine (Action.run_bind_quiet (run_require hinit) _).trans ?_
  refine (Action.run_bind_quiet (Action.run_ofExcept (Value.lengthOf (.list [])) s) _).trans ?_
  rw [isNumber_length, List.isEmpty_nil, if_pos rfl]
  rfl

theorem run_getMulti_cons (client : Client κ) (settings : Settings) (now : Binary64)
    (hinit : s.initialized = true) {keys : List Value} (hne : keys ≠ []) :
    store client settings now (.getMulti (.list keys)) s =
      (if client.isCluster then getMultiCluster client settings now (.list keys)
        else getMultiSingle client settings now (.list keys)) s := by
  have hlength : ¬(Value.number (.ofNat keys.length)).isNumber .zero = true := by
    rw [isNumber_length, List.isEmpty_iff]
    exact hne
  refine (Action.run_bind_quiet (run_require hinit) _).trans ?_
  refine (Action.run_bind_quiet (Action.run_ofExcept (Value.lengthOf (.list keys)) s) _).trans ?_
  rw [if_neg hlength]

def manyFor (scope : String) (keys : List String) : Command :=
  .mget (.list ((keys.map (scope ++ ·)).map .text))

theorem run_getMulti_single (client : Client κ) (scope : String) (now : Binary64)
    (hinit : s.initialized = true) (hsingle : client.isCluster = false) {keys : List String}
    (hne : keys ≠ []) :
    store client ⟨.text scope⟩ now (.getMulti (.list (keys.map .text))) s =
      ⟨do
          let answer ← (client.send now (manyFor scope keys) s.client).1.mapError
            (Fault.ofClient "MGET")
          return .table (present (← withKeys (Key.ofEach (keys.map .text)) answer)),
        { s with client := (client.send now (manyFor scope keys) s.client).2 }, []⟩ := by
  have hmade : (fullKeys ⟨.text scope⟩ (.list (keys.map .text))).map Command.mget =
      .ok (manyFor scope keys) := by
    rw [RedisServer.fullKeys_texts]
    rfl
  rw [run_getMulti_cons client _ now hinit (by simpa using hne), if_neg (by simp [hsingle])]
  refine Action.run_bind_except (run_call client now "MGET" hmade s) fun answer => ?_
  exact Action.run_bind_except (Action.run_ofExcept _ _) fun found => rfl

theorem run_readEach (client : Client κ) (scope : String) (now : Binary64) (keys : List String)
    (s : State κ) :
    readEach client ⟨.text scope⟩ now (keys.map .text) s =
      ⟨.ok (exchange client.send now (keys.map fun key => .get (scope ++ key)) s.client).1,
        { s with client :=
            (exchange client.send now (keys.map fun key => .get (scope ++ key)) s.client).2 },
        []⟩ := by
  induction keys generalizing s with
  | nil => rfl
  | cons key rest ih =>
    rw [List.map_cons]
    unfold readEach
    rw [RedisServer.fullKey_text]
    refine (Action.run_bind_quiet (Action.run_ofExcept _ s) _).trans ?_
    refine (Action.run_bind_quiet (Action.run_attempt _ s) _).trans ?_
    exact (Action.run_bind_quiet (ih _) _).trans rfl

/-- What reads of each key come to: all of them failed, or what was found is kept. -/
def gathered (keys : List String) (answers : List (Except Fault Value)) : Except Fault Value :=
  if answers.countP (fun answer => !answer.toBool) = keys.length then
    .error (.transient s!"GET failed on every cluster node for {keys.length} keys" none)
  else .ok (.table (present ((Key.ofEach (keys.map .text)).zip (answers.map settled))))

def warnings (keys : List String) (answers : List (Except Fault Value)) : List LogLine :=
  let failures := answers.countP fun answer => !answer.toBool
  if failures = 0 ∨ failures = keys.length then []
  else [⟨.warn, .redisStore,
    s!"{failures} of {keys.length} cluster reads failed, treating them as missing"⟩]

theorem run_getMulti_warning (client : Client κ) (scope : String) (now : Binary64)
    (hinit : s.initialized = true) (hcluster : client.isCluster = true) {keys : List String}
    (hne : keys ≠ []) :
    store client ⟨.text scope⟩ now (.getMulti (.list (keys.map .text))) s =
      ⟨gathered keys
          (exchange client.send now (keys.map fun key => .get (scope ++ key)) s.client).1,
        { s with client :=
            (exchange client.send now (keys.map fun key => .get (scope ++ key)) s.client).2 },
        warnings keys
          (exchange client.send now (keys.map fun key => .get (scope ++ key)) s.client).1⟩ := by
  rw [run_getMulti_cons client _ now hinit (by simpa using hne), if_pos hcluster]
  show getMultiCluster.gather client ⟨.text scope⟩ now (keys.map .text) s = _
  unfold getMultiCluster.gather gathered warnings
  rw [Action.run_bind_quiet (run_readEach client scope now keys s), List.length_map]
  dsimp only
  split
  · rename_i hall
    rw [if_pos (.inr hall)]
    rfl
  · rename_i hsome
    split
    · rename_i hpos
      rw [if_neg (by omega)]
      rfl
    · rename_i hnone
      rw [if_pos (.inl (by omega))]
      rfl

theorem run_getMulti_cluster (client : Client κ) (scope : String) (now : Binary64)
    (hinit : s.initialized = true) (hcluster : client.isCluster = true) {keys : List String}
    (hne : keys ≠ []) :
    ∃ lines, store client ⟨.text scope⟩ now (.getMulti (.list (keys.map .text))) s =
      ⟨gathered keys
          (exchange client.send now (keys.map fun key => .get (scope ++ key)) s.client).1,
        { s with client :=
            (exchange client.send now (keys.map fun key => .get (scope ++ key)) s.client).2 },
        lines⟩ :=
  ⟨_, run_getMulti_warning client scope now hinit hcluster hne⟩

end RedisStore

-- ---------------------------------------------------------------------------
-- MongoDB
-- ---------------------------------------------------------------------------

namespace MongoStore

def commandFor (settings : Settings) (now : Binary64) (key : String) : KeyCall → Command
  | .increment => .findOneAndIncrement ⟨.one (.text key), none⟩ settings.timeout
  | .addIfAbsent value ttl => .create (.text key) value (expiry now ttl)
  | .touch ttl => .updateOne ⟨.one (.text key), none⟩ ⟨none, expiry now ttl⟩ false settings.timeout
  | .set value ttl =>
    .updateOne ⟨.one (.text key), none⟩ ⟨some value, expiry now ttl⟩ true settings.timeout
  | .get => .findOne (live now (.one (.text key))) settings.timeout

def manyFor (settings : Settings) (now : Binary64) (keys : List String) : Command :=
  .find (live now (.among (.list (keys.map .text)))) settings.timeout

def matchedCount (result : Value) : Except Fault Binary64 := do
  (← result.property "matchedCount").asNumber

def replyTo (answer : Except Fault Value) : KeyCall → Except Fault Value
  | .increment => do
    let document ← answer.mapError (Fault.ofClient "findOneAndUpdate")
    if document.truthy then return .number (← (document.field "value").asNumber)
    else return .null
  | .addIfAbsent _ _ =>
    match answer with
    | .ok _ => .ok (.bool true)
    | .error fault =>
      if isDuplicate fault then .ok (.bool false)
      else .error (Fault.because "insert failed: " fault)
  | .touch _ => do
    let result ← answer.mapError (Fault.ofClient "updateOne")
    let matched ← matchedCount result
    return (if Binary64.zero.lt matched then TouchResult.touched else TouchResult.notFound).value
  | .set _ _ => do
    let _ ← answer.mapError (Fault.ofClient "updateOne")
    return .undefined
  | .get => do
    let document ← answer.mapError (Fault.ofClient "findOne")
    return if document.truthy then document.field "value" else .null

variable {κ : Type} {client : Client κ} {now : Binary64} {s : State κ}

theorem run_require (hinit : (s.initialized && s.hasModel) = true) : require s = ⟨.ok (), s, []⟩ := by
  unfold require
  rw [Action.run_bind_ok (Action.run_view (fun s => State.initialized s && s.hasModel) s), hinit]
  rfl

theorem run_call (client : Client κ) (now : Binary64) (operation : String) (command : Command)
    (s : State κ) :
    call client now operation (.ok command) s =
      ⟨(client.send now command s.client).1.mapError (Fault.ofClient operation),
        { s with client := (client.send now command s.client).2 }, []⟩ := by
  have hsend : ((do send client now (← Action.ofExcept (.ok command))) :
      StoreAction (State κ) Value) s = send client now command s :=
    congrFun (pure_bind command (send client now)) s
  unfold call Action.mapFault
  rw [hsend]
  rfl

theorem run_create (client : Client κ) (now : Binary64) (key : String) (value : Value)
    (ttl : Binary64) (s : State κ) :
    (Action.attempt (addIfAbsent.create client now (.text key) value (.number ttl)) :
      StoreAction (State κ) (Except Fault Value)) s =
        ⟨.ok (client.send now (.create (.text key) value (expiry now ttl)) s.client).1,
          { s with client := (client.send now (.create (.text key) value (expiry now ttl)) s.client).2 },
          []⟩ := by
  have hsend : addIfAbsent.create client now (.text key) value (.number ttl) s =
      send client now (.create (.text key) value (expiry now ttl)) s :=
    congrFun (pure_bind ttl fun ttl => send client now (.create (.text key) value (expiry now ttl))) s
  rw [Action.run_attempt, hsend]
  rfl

theorem run_on (client : Client κ) (settings : Settings) (now : Binary64) (key : String)
    (act : KeyCall) (hinit : (s.initialized && s.hasModel) = true) :
    store client settings now (act.call key) s =
      ⟨replyTo (client.send now (commandFor settings now key act) s.client).1 act,
        { s with client := (client.send now (commandFor settings now key act) s.client).2 }, []⟩ := by
  have hthen (rest : StoreAction (State κ) Value) : (do require; rest) s = rest s :=
    Action.run_bind_quiet (run_require hinit) fun _ => rest
  have hcall (operation : String) := run_call client now operation (commandFor settings now key act) s
  cases act with
  | increment =>
    refine (hthen _).trans (Action.run_bind_except (hcall "findOneAndUpdate") fun document => ?_)
    by_cases htruthy : document.truthy = true
    · rw [if_pos htruthy, if_pos htruthy]
      exact Action.run_bind_except (Action.run_ofExcept _ _) fun count => rfl
    · rw [if_neg htruthy, if_neg htruthy]
      rfl
  | addIfAbsent value ttl =>
    refine (hthen _).trans ((Action.run_bind_quiet (run_create client now key value ttl s) _).trans ?_)
    simp only [commandFor]
    cases (client.send now (.create (.text key) value (expiry now ttl)) s.client).1 with
    | ok document => rfl
    | error fault =>
      by_cases hduplicate : isDuplicate fault = true
      · simp [replyTo, hduplicate]
      · simp [replyTo, hduplicate]
  | touch ttl =>
    refine (hthen _).trans (Action.run_bind_except (hcall "updateOne") fun result => ?_)
    exact Action.run_bind_except (Action.run_ofExcept (matchedCount result) _) fun count => rfl
  | set value ttl => exact (hthen _).trans (Action.run_bind_except (hcall "updateOne") fun _ => rfl)
  | get => exact (hthen _).trans (Action.run_bind_except (hcall "findOne") fun _ => rfl)

theorem run_getMulti_nil (client : Client κ) (settings : Settings) (now : Binary64)
    (hinit : (s.initialized && s.hasModel) = true) :
    store client settings now (.getMulti (.list [])) s = ⟨.ok (.table []), s, []⟩ := by
  refine (Action.run_bind_quiet (run_require hinit) _).trans ?_
  refine (Action.run_bind_quiet (Action.run_ofExcept (Value.lengthOf (.list [])) s) _).trans ?_
  rw [isNumber_length, List.isEmpty_nil, if_pos rfl]
  rfl

def foundIn (documents : Value) : Except Fault (List (Key × Value)) := do
  entriesOf (← documents.iterate "records")

theorem run_getMulti (client : Client κ) (settings : Settings) (now : Binary64)
    (hinit : (s.initialized && s.hasModel) = true) {keys : List String} (hne : keys ≠ []) :
    store client settings now (.getMulti (.list (keys.map .text))) s =
      ⟨do
          let documents ← (client.send now (manyFor settings now keys) s.client).1.mapError
            (Fault.ofClient "find")
          return .table (Value.entriesOf (← foundIn documents)),
        { s with client := (client.send now (manyFor settings now keys) s.client).2 }, []⟩ := by
  have hlength : ¬(Value.number (.ofNat (keys.map Value.text).length)).isNumber .zero = true := by
    rw [isNumber_length, List.isEmpty_map, List.isEmpty_iff]
    exact hne
  refine (Action.run_bind_quiet (run_require hinit) _).trans ?_
  refine (Action.run_bind_quiet (Action.run_ofExcept (Value.lengthOf (.list _)) s) _).trans ?_
  rw [if_neg hlength]
  refine Action.run_bind_except (run_call client now "find" (manyFor settings now keys) s) ?_
  intro documents
  exact Action.run_bind_except (Action.run_ofExcept (foundIn documents) _) fun found => rfl

end MongoStore

end SlidingTally
