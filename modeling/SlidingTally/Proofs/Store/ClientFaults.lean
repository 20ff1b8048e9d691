import SlidingTally.Proofs.Store.ClientCalls

/-!
# Faults of clients

A store over a client fails a call for data when the client failed what the call came to, and for
no other reason. Its fault has callers try once more, whatever the client failed with, and is a
transient one if that can be worded. Main statement: `classified_stores`.
-/

namespace SlidingTally

-- ---------------------------------------------------------------------------
-- What clients answer
-- ---------------------------------------------------------------------------

abbrev Exchanges (γ : Type) : Type := List (γ × Except Fault Value)

/-- A client's behaviour with a record of what it was sent and what it answered. -/
def logged {γ κ : Type} (send : Binary64 → γ → κ → Except Fault Value × κ) (now : Binary64)
    (command : γ) (s : κ × Exchanges γ) : Except Fault Value × (κ × Exchanges γ) :=
  ((send now command s.1).1, (send now command s.1).2, s.2 ++ [(command, (send now command s.1).1)])

theorem exchange_logged {γ κ : Type} (send : Binary64 → γ → κ → Except Fault Value × κ)
    (now : Binary64) (commands : List γ) (s : κ × Exchanges γ) :
    exchange (logged send) now commands s =
      ((exchange send now commands s.1).1, (exchange send now commands s.1).2,
        s.2 ++ commands.zip (exchange send now commands s.1).1) := by
  induction commands generalizing s with
  | nil => simp [exchange]
  | cons command rest ih => simp [exchange, ih, logged]

/-- An answer is a reply of a documented kind or a fault that is the client's own. -/
def Expected (replies : Value → Prop) : Except Fault Value → Prop
  | .ok reply => replies reply
  | .error fault => fault.isStoreFault = false

def IsReading (reply : Value) : Prop := reply = .null ∨ ∃ text, reply = .text text

namespace RedisStore

def Command.Replies : Command → Value → Prop
  | .incr _ => fun reply => ∃ count, reply = .number count
  | .set _ _ _ _ => fun reply => reply = .text "OK" ∨ reply = .null
  | .pexpire _ _ => fun reply => ∃ count, reply = .number count
  | .get _ => IsReading
  | .mget _ => fun reply => ∃ values, reply = .list values ∧ ∀ value ∈ values, IsReading value
  | _ => fun _ => True

def Client.Documented (client : Client κ) : Prop :=
  ∀ now command s, Expected command.Replies (client.send now command s).1

def Client.logged (client : Client κ) : Client (κ × Exchanges Command) where
  isCluster := client.isCluster
  status s := client.status s.1
  send := SlidingTally.logged client.send

end RedisStore

namespace MongoStore

structure IsEntry (document : Value) : Prop where
  isRecord : ∃ fields, document = .record fields
  key : ∃ key, document.field "_id" = .text key
  value : (∃ x, document.field "value" = .number x) ∨ ∃ text, document.field "value" = .text text

def Command.Replies : Command → Value → Prop
  | .findOneAndIncrement _ _ => fun reply => reply = .null ∨ IsEntry reply
  | .create _ _ _ => IsEntry
  | .updateOne _ _ _ _ => fun reply =>
    (∃ fields, reply = .record fields) ∧ ∃ count, reply.field "matchedCount" = .number count
  | .findOne _ _ => fun reply => reply = .null ∨ IsEntry reply
  | .find _ _ => fun reply => ∃ items, reply = .list items ∧ ∀ item ∈ items, IsEntry item
  | _ => fun _ => True

def Client.Documented (client : Client κ) : Prop :=
  ∀ now command s, Expected command.Replies (client.send now command s).1

def Client.logged (client : Client κ) : Client (κ × Exchanges Command) where
  collection := client.collection
  send := SlidingTally.logged client.send

end MongoStore

-- ---------------------------------------------------------------------------
-- Faults that are passed on
-- ---------------------------------------------------------------------------

namespace Fault

def isTransient : Fault → Bool
  | .transient _ _ => true
  | _ => false

theorem action_because (lead : String) (cause : Fault) :
    (because lead cause).action = .retryOnce := by
  unfold because
  split <;> rfl

theorem isTransient_because (lead : String) (cause : Fault) :
    (because lead cause).isTransient = cause.message?.isSome := by
  unfold because
  split <;> simp_all [isTransient, unwritable]

theorem transient_or_unwritable (lead : String) (cause : Fault) :
    (because lead cause).isTransient = true ∨ because lead cause = .unwritable := by
  unfold because
  split
  · exact .inl rfl
  · exact .inr rfl

theorem ofClient_of_not_isStoreFault {fault : Fault} (operation : String)
    (h : fault.isStoreFault = false) :
    ofClient operation fault = because s!"{operation} failed: " fault := by
  simp [ofClient, h]

end Fault

/-- How a call ends by what its client was sent and answered. It fails if it was sent anything and
all of it failed, with faults that count; callers then try once more. -/
structure Classified (counts : Fault → Bool) (isSpread : Bool) (exchanges : Exchanges γ)
    (reply : Except Fault Value) : Prop where
  fails_iff : reply.toBool = false ↔ exchanges ≠ [] ∧
    ∀ exchange ∈ exchanges, ∃ fault, exchange.2 = .error fault ∧ counts fault = true
  action : ∀ fault, reply = .error fault → fault.action = .retryOnce
  /-- A call that is spread over many reads says so itself; any other one words the fault. -/
  isTransient_iff : ∀ fault, reply = .error fault → (fault.isTransient = true ↔ isSpread = true ∨
    ∀ exchange ∈ exchanges, ∀ cause, exchange.2 = .error cause → cause.message?.isSome = true)
  transient_or_unwritable : ∀ fault, reply = .error fault →
    fault.isTransient = true ∨ fault = .unwritable

section
variable {counts : Fault → Bool} {isSpread : Bool} {exchanges : Exchanges γ}
  {answer reply : Except Fault Value}

theorem classified_of_ok (hreply : reply.toBool = true)
    (h : exchanges = [] ∨ ∃ exchange ∈ exchanges, ∀ fault, exchange.2 = .error fault →
      counts fault = false) : Classified counts isSpread exchanges reply := by
  have hnone (fault : Fault) : reply ≠ .error fault := by
    rintro rfl
    cases hreply
  refine ⟨iff_of_false (by simp [hreply]) ?_, fun fault heq => absurd heq (hnone fault),
    fun fault heq => absurd heq (hnone fault), fun fault heq => absurd heq (hnone fault)⟩
  rintro ⟨hne, hall⟩
  obtain hnil | ⟨exchange, hmem, hexcused⟩ := h
  · exact hne hnil
  · obtain ⟨fault, hfault, hcounts⟩ := hall exchange hmem
    rw [hexcused fault hfault] at hcounts
    cases hcounts

theorem classified_one (command : γ) (hok : ∀ value, answer = .ok value → reply.toBool = true)
    (hexcused : ∀ fault, answer = .error fault → counts fault = false → reply.toBool = true)
    (hfails : ∀ fault, answer = .error fault → counts fault = true →
      ∃ lead, reply = .error (.because lead fault)) :
    Classified counts false [(command, answer)] reply := by
  cases answer with
  | ok value => exact classified_of_ok (hok value rfl) (.inr ⟨_, List.mem_singleton_self _, nofun⟩)
  | error cause =>
    cases hcounts : counts cause with
    | false =>
      refine classified_of_ok (hexcused cause rfl hcounts) (.inr ⟨_, List.mem_singleton_self _, ?_⟩)
      rintro fault ⟨⟩
      exact hcounts
    | true =>
      obtain ⟨lead, rfl⟩ := hfails cause rfl hcounts
      constructor
      · simp [Except.toBool, hcounts]
      · rintro fault ⟨⟩
        exact Fault.action_because lead cause
      · rintro fault ⟨⟩
        simp [Fault.isTransient_because]
      · rintro fault ⟨⟩
        exact Fault.transient_or_unwritable lead cause

theorem classified_call {replies : Value → Prop} {use : Value → Except Fault Value} (command : γ)
    (hexpected : Expected replies answer) (operation : String)
    (huse : ∀ value, replies value → (use value).toBool = true) :
    Classified (fun _ => true) false [(command, answer)]
      (answer.mapError (Fault.ofClient operation) >>= use) := by
  refine classified_one command ?_ nofun ?_
  · rintro value rfl
    exact huse value hexpected
  · rintro fault rfl -
    exact ⟨_, congrArg Except.error (Fault.ofClient_of_not_isStoreFault operation hexpected)⟩

end

-- ---------------------------------------------------------------------------
-- Redis
-- ---------------------------------------------------------------------------

def DataCall.isMany : DataCall → Bool
  | .on _ _ => false
  | .getMulti _ => true

namespace RedisStore

variable {κ : Type} {client : Client κ} {now : Binary64}

def commandsFor (isCluster : Bool) (scope : String) : DataCall → List Command
  | .on key act => [commandFor (scope ++ key) act]
  | .getMulti keys =>
    if isCluster then keys.map fun key => .get (scope ++ key)
    else if keys.isEmpty then [] else [manyFor scope keys]

theorem classified_on (hclient : client.Documented) (scope key : String) (act : KeyCall) (s : κ) :
    Classified (fun _ => true) false
      [(commandFor (scope ++ key) act, (client.send now (commandFor (scope ++ key) act) s).1)]
      (do
        let answer ← (client.send now (commandFor (scope ++ key) act) s).1.mapError
          (Fault.ofClient (operationOf act))
        return replyTo answer act) :=
  classified_call _ (hclient now _ s) (operationOf act) fun _ _ => rfl

theorem classified_many (hclient : client.Documented) (scope : String) (keys : List String) (s : κ) :
    Classified (fun _ => true) false
      [(manyFor scope keys, (client.send now (manyFor scope keys) s).1)]
      (do
        let answer ← (client.send now (manyFor scope keys) s).1.mapError (Fault.ofClient "MGET")
        return .table (present (← withKeys (Key.ofEach (keys.map .text)) answer))) := by
  refine classified_call _ (hclient now _ s) "MGET" ?_
  rintro _ ⟨values, rfl, -⟩
  rfl

theorem classified_gathered {keys : List String} {commands : List Command}
    {answers : List (Except Fault Value)} (hne : keys ≠ []) (hcommands : commands.length = keys.length)
    (hanswers : answers.length = keys.length) :
    Classified (fun _ => true) true (commands.zip answers) (gathered keys answers) := by
  have hsnd : (commands.zip answers).map Prod.snd = answers :=
    List.map_snd_zip (hanswers.trans hcommands.symm).le
  unfold gathered
  by_cases hall : answers.countP (fun answer => !answer.toBool) = keys.length
  · have hfailed : ∀ exchange ∈ commands.zip answers, ∃ fault, exchange.2 = .error fault ∧
        true = true := by
      intro exchange hmem
      have hanswer : exchange.2 ∈ answers := hsnd ▸ List.mem_map_of_mem hmem
      have hfails := List.countP_eq_length.mp (hall.trans hanswers.symm) _ hanswer
      cases h : exchange.2 with
      | ok value => simp [h, Except.toBool] at hfails
      | error fault => exact ⟨fault, rfl, rfl⟩
    have hsent : commands.zip answers ≠ [] := by
      rintro hnil
      rw [hnil] at hsnd
      exact hne (List.length_eq_zero_iff.mp (by rw [← hanswers, ← hsnd]; rfl))
    rw [if_pos hall]
    constructor
    · exact iff_of_true rfl ⟨hsent, hfailed⟩
    · rintro fault ⟨⟩
      rfl
    · rintro fault ⟨⟩
      simp [Fault.isTransient]
    · rintro fault ⟨⟩
      exact .inl rfl
  · -- Not all of them failed, so one of them did not, and that one is what keeps the call going.
    rw [if_neg hall]
    refine classified_of_ok rfl (.inr ?_)
    rw [← hanswers, List.countP_eq_length] at hall
    push Not at hall
    obtain ⟨answer, hanswer, hreplied⟩ := hall
    rw [← hsnd] at hanswer
    obtain ⟨exchange, hmem, rfl⟩ := List.mem_map.mp hanswer
    refine ⟨exchange, hmem, fun fault hfault => ?_⟩
    simp [hfault, Except.toBool] at hreplied

theorem classified_data (hclient : client.Documented) (scope : String) (now : Binary64)
    (call : DataCall) {s : State (κ × Exchanges Command)} (hinit : s.initialized = true) :
    ∃ exchanges, exchanges.map Prod.fst = commandsFor client.isCluster scope call ∧
      (store client.logged ⟨.text scope⟩ now call.call s).state.client.2 = s.client.2 ++ exchanges ∧
      Classified (fun _ => true) (client.isCluster && call.isMany) exchanges
        (store client.logged ⟨.text scope⟩ now call.call s).reply := by
  cases call with
  | on key act =>
    rw [DataCall.call, run_on client.logged scope now key act hinit, DataCall.isMany, Bool.and_false]
    exact ⟨[(_, _)], rfl, rfl, classified_on hclient scope key act s.client.1⟩
  | getMulti keys =>
    rw [DataCall.call, DataCall.isMany, Bool.and_true]
    by_cases hne : keys = []
    · subst hne
      rw [List.map_nil, run_getMulti_nil client.logged _ now hinit]
      refine ⟨[], ?_, (List.append_nil _).symm, classified_of_ok rfl (.inl rfl)⟩
      cases client.isCluster <;> rfl
    · have hsome : keys.isEmpty = false := by simpa using hne
      cases hcluster : client.isCluster with
      | false =>
        rw [run_getMulti_single client.logged scope now hinit hcluster hne]
        refine ⟨[(_, _)], ?_, rfl, classified_many hclient scope keys s.client.1⟩
        simp [commandsFor, hsome]
      | true =>
        obtain ⟨lines, hrun⟩ := run_getMulti_cluster client.logged scope now hinit hcluster hne
        have hexchange := exchange_logged client.send now
          (keys.map fun key => Command.get (scope ++ key)) s.client
        have hanswers := length_exchange client.send now
          (keys.map fun key => Command.get (scope ++ key)) s.client.1
        change exchange client.logged.send now _ _ = _ at hexchange
        rw [hrun, hexchange]
        refine ⟨_, ?_, rfl, classified_gathered hne (List.length_map ..) ?_⟩
        · rw [List.map_fst_zip hanswers.ge]
          rfl
        · rw [hanswers, List.length_map]

end RedisStore

namespace MongoStore

variable {κ : Type} {client : Client κ} {settings : Settings} {now : Binary64}

def commandsFor (settings : Settings) (now : Binary64) : DataCall → List Command
  | .on key act => [commandFor settings now key act]
  | .getMulti keys => if keys.isEmpty then [] else [manyFor settings now keys]

/-- Faults that fail a call; one about a key that is taken does not fail its creation. -/
def counts : DataCall → Fault → Bool
  | .on _ (.addIfAbsent _ _), fault => !isDuplicate fault
  | _, _ => true

theorem replyTo_of_not_counts {key : String} {act : KeyCall} {answer : Except Fault Value}
    (hfault : answer = .error fault) (hexcused : counts (.on key act) fault = false) :
    replyTo answer act = .ok (.bool false) := by
  subst hfault
  cases act with
  | addIfAbsent value ttl =>
    have hduplicate : isDuplicate fault = true := by simpa [counts] using hexcused
    simp [replyTo, hduplicate]
  | _ => cases hexcused

theorem exists_asNumber {value : Value} (h : value.toText?.isSome) :
    ∃ x, value.asNumber = .ok x := by
  obtain ⟨x, hx⟩ := Option.isSome_iff_exists.mp (Value.toNumber?_isSome_of_toText? h)
  exact ⟨x, by rw [Value.asNumber, hx]⟩

theorem IsEntry.exists_asNumber {document : Value} (h : IsEntry document) :
    ∃ x, (document.field "value").asNumber = .ok x := by
  apply MongoStore.exists_asNumber
  obtain ⟨x, hx⟩ | ⟨text, htext⟩ := h.value
  · simp [hx]
  · simp [htext]

theorem IsEntry.truthy {document : Value} (h : IsEntry document) : document.truthy = true := by
  obtain ⟨fields, rfl⟩ := h.isRecord
  rfl

theorem IsEntry.exists_shows {document : Value} (h : IsEntry document) :
    ∃ entry, DocumentDatabase.Shows document entry := by
  obtain ⟨fields, rfl⟩ := h.isRecord
  obtain ⟨key, hkey⟩ := h.key
  exact ⟨(key, Value.field (.record fields) "value"), congrArg Except.ok hkey, rfl⟩

theorem exists_entriesOf {items : List Value} (h : ∀ item ∈ items, IsEntry item) :
    ∃ entries, entriesOf items = .ok entries := by
  have hshows : ∃ found, List.Forall₂ DocumentDatabase.Shows items found := by
    induction items with
    | nil => exact ⟨[], .nil⟩
    | cons item rest ih =>
      obtain ⟨entry, hentry⟩ := (h item List.mem_cons_self).exists_shows
      obtain ⟨found, hfound⟩ := ih fun other hmem => h other (List.mem_cons_of_mem _ hmem)
      exact ⟨entry :: found, .cons hentry hfound⟩
  obtain ⟨found, hfound⟩ := hshows
  exact ⟨_, DocumentDatabase.entriesOf_shows hfound⟩

theorem classified_on (hclient : client.Documented) (key : String) (act : KeyCall) (s : κ) :
    Classified (counts (.on key act)) false
      [(commandFor settings now key act, (client.send now (commandFor settings now key act) s).1)]
      (replyTo (client.send now (commandFor settings now key act) s).1 act) := by
  have hexpected := hclient now (commandFor settings now key act) s
  cases act with
  | increment =>
    refine classified_call _ hexpected "findOneAndUpdate" ?_
    rintro document (rfl | hentry)
    · rfl
    · obtain ⟨x, hx⟩ := hentry.exists_asNumber
      rw [if_pos hentry.truthy, hx]
      rfl
  | addIfAbsent value ttl =>
    generalize (client.send now (commandFor settings now key (.addIfAbsent value ttl)) s).1 = answer
      at hexpected ⊢
    refine classified_one _ ?_ ?_ ?_
    · rintro document rfl
      rfl
    · intro fault hfault hexcused
      rw [replyTo_of_not_counts hfault hexcused]
      rfl
    · rintro fault rfl hcounts
      have hduplicate : isDuplicate fault = false := by simpa [counts] using hcounts
      exact ⟨"insert failed: ", by simp [replyTo, hduplicate]⟩
  | touch ttl =>
    refine classified_call _ hexpected "updateOne" ?_
    rintro result ⟨⟨fields, rfl⟩, count, hcount⟩
    have hmatched : matchedCount (.record fields) = .ok count := by
      show (Value.field (.record fields) "matchedCount").asNumber = _
      rw [hcount]
      rfl
    rw [hmatched]
    rfl
  | set value ttl => exact classified_call _ hexpected "updateOne" fun _ _ => rfl
  | get => exact classified_call _ hexpected "findOne" fun _ _ => rfl

theorem classified_many (hclient : client.Documented) (keys : List String) (s : κ) :
    Classified (counts (.getMulti keys)) false
      [(manyFor settings now keys, (client.send now (manyFor settings now keys) s).1)]
      (do
        let documents ← (client.send now (manyFor settings now keys) s).1.mapError
          (Fault.ofClient "find")
        return .table (Value.entriesOf (← foundIn documents))) := by
  refine classified_call _ (hclient now _ s) "find" ?_
  rintro _ ⟨items, rfl, hitems⟩
  obtain ⟨entries, hentries⟩ := exists_entriesOf hitems
  have hfound : foundIn (.list items) = .ok entries := hentries
  rw [hfound]
  rfl

theorem classified_data (hclient : client.Documented) (settings : Settings) (now : Binary64)
    (call : DataCall) {s : State (κ × Exchanges Command)}
    (hinit : (s.initialized && s.hasModel) = true) :
    ∃ exchanges, exchanges.map Prod.fst = commandsFor settings now call ∧
      (store client.logged settings now call.call s).state.client.2 = s.client.2 ++ exchanges ∧
      Classified (counts call) false exchanges (store client.logged settings now call.call s).reply ∧
      ((∃ exchange ∈ exchanges, ∃ fault, exchange.2 = .error fault ∧ counts call fault = false) →
        (store client.logged settings now call.call s).reply = .ok (.bool false)) := by
  cases call with
  | on key act =>
    rw [DataCall.call, run_on client.logged settings now key act hinit]
    refine ⟨[(_, _)], rfl, rfl, classified_on hclient key act s.client.1, ?_⟩
    rintro ⟨exchange, hmem, fault, hfault, hexcused⟩
    cases List.mem_singleton.mp hmem
    exact replyTo_of_not_counts hfault hexcused
  | getMulti keys =>
    rw [DataCall.call]
    by_cases hne : keys = []
    · subst hne
      rw [List.map_nil, run_getMulti_nil client.logged settings now hinit]
      exact ⟨[], rfl, (List.append_nil _).symm, classified_of_ok rfl (.inl rfl), by simp⟩
    · have hsome : keys.isEmpty = false := by simpa using hne
      rw [run_getMulti client.logged settings now hinit hne]
      refine ⟨[(_, _)], ?_, rfl, classified_many hclient keys s.client.1, by simp [counts]⟩
      simp [commandsFor, hsome]

end MongoStore

-- ---------------------------------------------------------------------------
-- Both
-- ---------------------------------------------------------------------------

/-- Over clients that answer as documented, whatever they fail with, a call for data fails if and
only if the command that it came to failed, where a key that is taken is no failure of its
creation, and a read of many keys from a cluster fails if and only if the reads of all of them did.
Callers always try once more. The fault is a transient one, unless it was to word a thrown value
that has no text; then that is the fault. -/
theorem classified_stores (now : Binary64) (call : DataCall) :
    (∀ {κ : Type} (client : RedisStore.Client κ) (scope : String)
      (s : RedisStore.State (κ × Exchanges RedisStore.Command)),
      client.Documented → s.initialized = true →
      let o := RedisStore.store client.logged ⟨.text scope⟩ now call.call s
      ∃ exchanges, exchanges.map Prod.fst = RedisStore.commandsFor client.isCluster scope call ∧
        o.state.client.2 = s.client.2 ++ exchanges ∧
        Classified (fun _ => true) (client.isCluster && call.isMany) exchanges o.reply) ∧
    ∀ {κ : Type} (client : MongoStore.Client κ) (settings : MongoStore.Settings)
      (s : MongoStore.State (κ × Exchanges MongoStore.Command)),
      client.Documented → (s.initialized && s.hasModel) = true →
      let o := MongoStore.store client.logged settings now call.call s
      ∃ exchanges, exchanges.map Prod.fst = MongoStore.commandsFor settings now call ∧
        o.state.client.2 = s.client.2 ++ exchanges ∧
        Classified (MongoStore.counts call) false exchanges o.reply ∧
        ((∃ exchange ∈ exchanges, ∃ fault, exchange.2 = .error fault ∧
          MongoStore.counts call fault = false) → o.reply = .ok (.bool false)) :=
  ⟨fun _ scope _ hclient hinit => RedisStore.classified_data hclient scope now call hinit,
    fun _ settings _ hclient hinit =>
      MongoStore.classified_data hclient settings now call hinit⟩

def mute (isCluster : Bool) : RedisStore.Client Unit where
  isCluster := isCluster
  status _ := "ready"
  send _ _ s := (.error (.thrown (.record [(Value.textField, .number 1)])), s)

def crowded : MongoStore.Client Unit where
  collection := "counters"
  send _ _ s := (.error (.server "E11000 duplicate key" (.number MongoStore.duplicateKey)), s)

theorem documented_mute (isCluster : Bool) : (mute isCluster).Documented := fun _ _ _ => rfl

theorem documented_crowded : crowded.Documented := fun _ _ _ => rfl

/-- Reads that all fail are a transient fault of their own, and a key that is taken is none. -/
theorem classified_mute_crowded :
    let s : RedisStore.State (Unit × Exchanges RedisStore.Command) :=
      { initialized := true, client := ((), []) }
    let t : MongoStore.State (Unit × Exchanges MongoStore.Command) :=
      { initialized := true, hasModel := true, client := ((), []) }
    (∃ fault, (RedisStore.store (mute true).logged ⟨.text "velocity:"⟩ 0
        (.getMulti (.list [.text "a", .text "b"])) s).reply = .error fault ∧
        fault.isTransient = true ∧ fault.action = .retryOnce) ∧
      (MongoStore.store crowded.logged {} 0 (.addIfAbsent (.text "a") (.number 1) (.number 60)) t).reply =
        .ok (.bool false) := by
  intro s t
  constructor
  · obtain ⟨exchanges, -, -, hclass⟩ := (classified_stores 0 (.getMulti ["a", "b"])).1
      (mute true) "velocity:" s (documented_mute true) rfl
    obtain ⟨lines, hrun⟩ := RedisStore.run_getMulti_cluster (mute true).logged "velocity:" 0 (s := s)
      rfl rfl (List.cons_ne_nil "a" ["b"])
    have hreply := congrArg Outcome.reply hrun
    exact ⟨_, hreply, (hclass.isTransient_iff _ hreply).mpr (.inl rfl), hclass.action _ hreply⟩
  · obtain ⟨exchanges, -, hlog, -, hexcused⟩ :=
      (classified_stores 0 (.on "a" (.addIfAbsent (.number 1) 60))).2 crowded {} t
        documented_crowded rfl
    have hsent : exchanges = [(.create (.text "a") (.number 1) (MongoStore.expiry 0 60),
        .error (.server "E11000 duplicate key" (.number MongoStore.duplicateKey)))] := by
      rw [DataCall.call, MongoStore.run_on crowded.logged {} 0 "a" _ rfl] at hlog
      exact hlog.symm
    refine hexcused ⟨_, hsent ▸ List.mem_singleton_self _, _, rfl, ?_⟩
    decide +kernel

/-- A thrown value without a text leaves a store as the fault of wording it. -/
theorem get_mute_not_transient :
    let s : RedisStore.State (Unit × Exchanges RedisStore.Command) :=
      { initialized := true, client := ((), []) }
    (mute false).Documented ∧ ∃ fault,
      (RedisStore.store (mute false).logged ⟨.text "velocity:"⟩ 0 (.get (.text "a")) s).reply =
        .error fault ∧ fault.isTransient = false :=
  ⟨documented_mute false, _, rfl, rfl⟩

end SlidingTally
