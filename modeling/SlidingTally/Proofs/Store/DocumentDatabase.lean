import Mathlib.Logic.Function.Basic
import SlidingTally.Proofs.Action.Triple
import SlidingTally.Proofs.Number.Digits
import SlidingTally.Proofs.Store.Entries
import SlidingTally.Store.Mongo

/-!
# A document database

One map of documents with an expiry each, which serves every command as documented, but removes a
document at any moment from its expiry on or not at all, and finds documents in any order.
`Acts` says of a model, with whatever state, that it acts on such a map. Main statements:
`evaluates_increment_none`, `evaluates_increment_some`, `evaluates_addIfAbsent` and
`evaluates_getMulti`.
-/

namespace SlidingTally

theorem Instant.ofNumber_is {x : Binary64} {k : Int} (h : x.Is k) (hk : k.natAbs ≤ limit) :
    ofNumber x = .at k := by
  have hlimit : limit = 8640000000000000 := rfl
  have hrange : -limit ≤ k ∧ k ≤ limit := ⟨by omega, by omega⟩
  simp only [ofNumber, (h.trunc (by omega)).toInt?, if_pos hrange]

namespace DocumentDatabase

open SlidingTally.Action (Evaluates)
open Binary64 (ofNat is_ofNat)
open MongoStore (Command Client Filter KeyFilter Change Settings)

-- ---------------------------------------------------------------------------
-- The database
-- ---------------------------------------------------------------------------

structure Document where
  value : Value
  /-- None for no expiry. -/
  expiresAt : Option Instant

/-- Expired documents included. -/
abbrev Documents : Type := String → Option Document

def put (documents : Documents) (id : String) (document : Document) : Documents :=
  Function.update documents id (some document)

def record (id : String) (document : Document) : Value :=
  .record [("_id", .text id), ("value", document.value),
    ("expiresAt", (document.expiresAt.map Value.instant).getD .null)]

def idsOf : KeyFilter → List String
  | .one key => key.toText?.toList
  | .among (.list keys) => (keys.filterMap Value.toText?).dedup
  | .among _ => []

def admits (liveAt : Option Instant) (document : Document) : Bool :=
  match liveAt, document.expiresAt with
  | some now, some instant => now.before instant
  | _, _ => true

def matching (documents : Documents) (filter : Filter) : List (String × Document) :=
  (idsOf filter.keys).filterMap fun id =>
    ((documents id).filter (admits filter.liveAt)).map fun document => (id, document)

def duplicate : Fault := .server "E11000 duplicate key error" (.number MongoStore.duplicateKey)

def notNumeric : Fault :=
  .server "Cannot apply $inc to a value of non-numeric type" (.number 14)

def matched (count : Nat) : Value := .record [("matchedCount", .number (ofNat count))]

def increment (documents : Documents) (filter : Filter) : Except Fault Value × Documents :=
  match matching documents filter with
  | [] => (.ok .null, documents)
  | (id, document) :: _ =>
    match document.value with
    | .number x =>
      (.ok (record id ⟨.number (x + 1), document.expiresAt⟩),
        put documents id ⟨.number (x + 1), document.expiresAt⟩)
    | _ => (.error notNumeric, documents)

def create (documents : Documents) (key value : Value) (expiresAt : Option Instant) :
    Except Fault Value × Documents :=
  match key.asText with
  | .error fault => (.error fault, documents)
  | .ok id =>
    match documents id with
    | some _ => (.error duplicate, documents)
    | none => (.ok (record id ⟨value, expiresAt⟩), put documents id ⟨value, expiresAt⟩)

def updateOne (documents : Documents) (filter : Filter) (change : Change) (upsert : Bool) :
    Except Fault Value × Documents :=
  match matching documents filter, idsOf filter.keys with
  | (id, document) :: _, _ =>
    (.ok (matched 1), put documents id ⟨change.value.getD document.value, change.expiresAt⟩)
  | [], id :: _ =>
    if upsert then
      (.ok (matched 0), put documents id ⟨change.value.getD .undefined, change.expiresAt⟩)
    else (.ok (matched 0), documents)
  | [], [] => (.ok (matched 0), documents)

def serve (command : Command) (documents : Documents) : Except Fault Value × Documents :=
  match command with
  | .defineModel _ => (.ok .undefined, documents)
  | .createIndex => (.ok .undefined, documents)
  | .findOneAndIncrement filter _ => increment documents filter
  | .create key value expiresAt => create documents key value expiresAt
  | .updateOne filter change upsert _ => updateOne documents filter change upsert
  | .findOne filter _ =>
    (.ok (((matching documents filter).head?.map fun found => record found.1 found.2).getD .null),
      documents)
  | .find filter _ =>
    (.ok (.list ((matching documents filter).map fun found => record found.1 found.2)), documents)

-- ---------------------------------------------------------------------------
-- What is left open
-- ---------------------------------------------------------------------------

/-- From its expiry on a document may be removed. -/
def Document.isExpired (document : Document) (now : Binary64) : Bool :=
  document.expiresAt.any fun instant => !(Instant.ofNumber now).before instant

def Purged (now : Binary64) (before after : Documents) : Prop :=
  ∀ id, after id = before id ∨
    after id = none ∧ ∃ document, before id = some document ∧ document.isExpired now = true

/-- Replies that differ in the order of documents or the wording of a fault at most. -/
inductive Agrees : Except Fault Value → Except Fault Value → Prop where
  | same (reply : Except Fault Value) : Agrees reply reply
  | arranged (h : items.Perm items') : Agrees (.ok (.list items)) (.ok (.list items'))
  | worded (message message' : String) (code : Value) :
    Agrees (.error (.server message code)) (.error (.server message' code))

/-- A model that acts on a database, which may remove documents before it serves a command;
`documents` is what the database has. -/
def Acts (client : Client κ) (documents : κ → Documents) : Prop :=
  ∀ now command s, ∃ left, Purged now (documents s) left ∧
    Agrees (client.send now command s).1 (serve command left).1 ∧
    documents (client.send now command s).2 = (serve command left).2

/-- Such a model, where `left` says what of its documents the database has left when it serves a
command. -/
def Leaves (client : Client κ) (documents : κ → Documents)
    (left : Binary64 → Command → κ → Documents) : Prop :=
  ∀ now command s, Purged now (documents s) (left now command s) ∧
    Agrees (client.send now command s).1 (serve command (left now command s)).1 ∧
    documents (client.send now command s).2 = (serve command (left now command s)).2

theorem Acts.exists_leaves (h : Acts client documents) : ∃ left, Leaves client documents left :=
  ⟨fun now command s => (h now command s).choose, fun now command s => (h now command s).choose_spec⟩

/-- The model of a database that never removes a document. -/
def lingering : Client Documents where
  collection := "velocity_counters"
  send := fun _ => serve

/-- The model of a database that removes every document at its expiry. -/
def prompt : Client Documents where
  collection := "velocity_counters"
  send := fun now command documents =>
    serve command fun id => (documents id).filter fun document => !document.isExpired now

theorem acts_lingering : Acts lingering fun documents => documents :=
  fun _ _ _ => ⟨_, fun _ => .inl rfl, .same _, rfl⟩

theorem leaves_lingering :
    Leaves lingering (fun documents => documents) fun _ _ documents => documents :=
  fun _ _ _ => ⟨fun _ => .inl rfl, .same _, rfl⟩

theorem acts_prompt : Acts prompt fun documents => documents := by
  refine fun now command documents => ⟨_, fun id => ?_, .same _, rfl⟩
  dsimp only
  cases documents id with
  | none => exact .inl rfl
  | some document =>
    cases hexpired : document.isExpired now with
    | true => exact .inr ⟨by simp [Option.filter, hexpired], document, rfl, hexpired⟩
    | false => exact .inl (by simp [Option.filter, hexpired])

theorem Agrees.eq {reply : Except Fault Value} (h : Agrees reply (.ok value))
    (hlist : value.items? = none) : reply = .ok value := by
  cases h with
  | same => rfl
  | arranged => cases hlist

theorem Agrees.list {reply : Except Fault Value} (h : Agrees reply (.ok (.list items))) :
    ∃ items', reply = .ok (.list items') ∧ items'.Perm items := by
  cases h with
  | same => exact ⟨items, rfl, .refl _⟩
  | arranged hperm => exact ⟨_, rfl, hperm⟩

theorem Agrees.duplicate {reply : Except Fault Value} (h : Agrees reply (.error duplicate)) :
    ∃ message, reply = .error (.server message (.number MongoStore.duplicateKey)) := by
  cases h with
  | same => exact ⟨_, rfl⟩
  | worded message => exact ⟨message, rfl⟩

-- ---------------------------------------------------------------------------
-- The store over a database
-- ---------------------------------------------------------------------------

section
variable {κ : Type} {client : Client κ} {documents : κ → Documents} {s : MongoStore.State κ}
  {now : Binary64}

structure Has (documents : κ → Documents) (s : MongoStore.State κ) (held : Documents) : Prop where
  initialized : s.initialized = true
  hasModel : s.hasModel = true
  documents : documents s.client = held

theorem Leaves.run_send {left : Binary64 → Command → κ → Documents} (h : Leaves client documents left)
    (hhas : Has documents s held) (now : Binary64) (command : Command) :
    ∃ reply s', Purged now held (left now command s.client) ∧
      MongoStore.send client now command s = ⟨reply, s', []⟩ ∧
      Agrees reply (serve command (left now command s.client)).1 ∧
      Has documents s' (serve command (left now command s.client)).2 := by
  obtain ⟨hpurged, hagrees, hafter⟩ := h now command s.client
  rw [hhas.documents] at hpurged
  exact ⟨_, { s with client := (client.send now command s.client).2 }, hpurged, rfl, hagrees,
    hhas.initialized, hhas.hasModel, hafter⟩

theorem Acts.run_send (h : Acts client documents) (hhas : Has documents s held) (now : Binary64)
    (command : Command) :
    ∃ left reply s', Purged now held left ∧
      MongoStore.send client now command s = ⟨reply, s', []⟩ ∧
      Agrees reply (serve command left).1 ∧ Has documents s' (serve command left).2 := by
  obtain ⟨left, hleaves⟩ := h.exists_leaves
  exact ⟨_, hleaves.run_send hhas now command⟩

theorem evaluates_call (operation : String) {command : Command} {s' : MongoStore.State κ}
    (hrun : MongoStore.send client now command s = ⟨.ok value, s', []⟩) :
    Evaluates (MongoStore.call client now operation (.ok command)) s value s' := by
  have hsend : ((do MongoStore.send client now (← Action.ofExcept (.ok command))) :
      StoreAction (MongoStore.State κ) Value) s = ⟨.ok value, s', []⟩ := by
    rw [← hrun]
    exact congrFun (pure_bind command (MongoStore.send client now)) s
  refine ⟨[], ?_⟩
  unfold MongoStore.call Action.mapFault
  rw [hsend]
  rfl

theorem evaluates_require (hhas : Has documents s held) : Evaluates MongoStore.require s () s := by
  have hready : (s.initialized && s.hasModel) = true := by
    rw [hhas.initialized, hhas.hasModel]
    rfl
  refine ⟨[], ?_⟩
  unfold MongoStore.require
  rw [Action.run_bind_ok (Action.run_view (fun s => s.initialized && s.hasModel) s), hready]
  rfl

theorem evaluates_isInitialized (client : Client κ) (settings : Settings) (now : Binary64)
    (hinit : s.initialized = true) :
    Evaluates (MongoStore.store client settings now .isInitialized) s (.bool true) s :=
  ⟨[], by rw [← hinit]; rfl⟩

theorem start_state (h : Acts client documents) (now : Binary64) {s : MongoStore.State κ}
    (hmodel : s.hasModel = true) (hfresh : ∀ id, documents s.client id = none) :
    Has documents (MongoStore.start client now s).state fun _ => none := by
  obtain ⟨left, hpurged, hagrees, hafter⟩ := h now .createIndex s.client
  have hrun : MongoStore.send client now .createIndex s =
      ⟨.ok .undefined, { s with client := (client.send now .createIndex s.client).2 }, []⟩ := by
    rw [← hagrees.eq rfl]
    rfl
  have hnone : documents (client.send now .createIndex s.client).2 = fun _ => none := by
    rw [hafter]
    funext id
    rcases hpurged id with hsame | ⟨hgone, -⟩
    · exact hsame.trans (hfresh id)
    · exact hgone
  unfold MongoStore.start
  rw [Action.run_bind_ok (Action.run_view MongoStore.State.hasModel s), hmodel, if_pos rfl,
    Action.run_bind_ok hrun]
  exact ⟨rfl, hmodel, hnone⟩

end

-- ---------------------------------------------------------------------------
-- Single documents
-- ---------------------------------------------------------------------------

theorem Purged.refl (now : Binary64) (held : Documents) : Purged now held held :=
  fun _ => .inl rfl

theorem Purged.of_none (h : Purged now held left) (hnone : held key = none) : left key = none := by
  rcases h key with hsame | ⟨hgone, -⟩
  · exact hsame.trans hnone
  · exact hgone

theorem Purged.of_some (h : Purged now held left) (hsome : held key = some document)
    (hexpired : document.isExpired now = false) : left key = some document := by
  rcases h key with hsame | ⟨-, other, hother, hgone⟩
  · exact hsame.trans hsome
  · cases hsome.symm.trans hother
    rw [hexpired] at hgone
    cases hgone

theorem matching_one_none {left : Documents} (hnone : left key = none) :
    matching left ⟨.one (.text key), none⟩ = [] := by
  simp [matching, idsOf, hnone]

theorem matching_one_some {left : Documents} (hsome : left key = some document) :
    matching left ⟨.one (.text key), none⟩ = [(key, document)] := by
  simp [matching, idsOf, hsome, admits, Option.filter]

section
variable {κ : Type} {client : Client κ} {documents : κ → Documents} {s s' : MongoStore.State κ}
  {now ttl : Binary64} {held : Documents} {key : String}

theorem evaluates_increment_of_null {settings : Settings} (hhas : Has documents s held)
    (hrun : MongoStore.send client now
      (.findOneAndIncrement ⟨.one (.text key), none⟩ settings.timeout) s = ⟨.ok .null, s', []⟩) :
    Evaluates (MongoStore.store client settings now (.increment (.text key))) s .null s' :=
  (evaluates_require hhas).bind ((evaluates_call "findOneAndUpdate" hrun).bind
    (Evaluates.pure _ _))

theorem evaluates_increment_of_record {settings : Settings} (hhas : Has documents s held)
    (hrun : MongoStore.send client now
      (.findOneAndIncrement ⟨.one (.text key), none⟩ settings.timeout) s =
        ⟨.ok (record key ⟨.number x, expiresAt⟩), s', []⟩) :
    Evaluates (MongoStore.store client settings now (.increment (.text key))) s (.number x) s' :=
  (evaluates_require hhas).bind ((evaluates_call "findOneAndUpdate" hrun).bind ⟨[], rfl⟩)

theorem evaluates_create
    (hrun : MongoStore.send client now (.create (.text key) value (MongoStore.expiry now ttl)) s =
      ⟨reply, s', []⟩) :
    Evaluates (Action.attempt (MongoStore.addIfAbsent.create client now (.text key) value
      (.number ttl)) : StoreAction (MongoStore.State κ) (Except Fault Value)) s reply s' := by
  have hsend : MongoStore.addIfAbsent.create client now (.text key) value (.number ttl) s =
      MongoStore.send client now (.create (.text key) value (MongoStore.expiry now ttl)) s :=
    congrFun (pure_bind ttl fun ttl => MongoStore.send client now
      (.create (.text key) value (MongoStore.expiry now ttl))) s
  exact ⟨[], by rw [Action.run_attempt, hsend, hrun]⟩

theorem evaluates_addIfAbsent_of_ok (settings : Settings) (hhas : Has documents s held)
    (hrun : MongoStore.send client now (.create (.text key) value (MongoStore.expiry now ttl)) s =
      ⟨.ok document, s', []⟩) :
    Evaluates (MongoStore.store client settings now (.addIfAbsent (.text key) value (.number ttl)))
      s (.bool true) s' :=
  (evaluates_require hhas).bind ((evaluates_create hrun).bind (Evaluates.pure _ _))

theorem evaluates_addIfAbsent_of_duplicate (settings : Settings) (hhas : Has documents s held)
    (hrun : MongoStore.send client now (.create (.text key) value (MongoStore.expiry now ttl)) s =
      ⟨.error (.server message (.number MongoStore.duplicateKey)), s', []⟩) :
    Evaluates (MongoStore.store client settings now (.addIfAbsent (.text key) value (.number ttl)))
      s (.bool false) s' := by
  refine (evaluates_require hhas).bind ((evaluates_create hrun).bind ?_)
  have hduplicate : MongoStore.isDuplicate
      (.server message (.number MongoStore.duplicateKey)) = true := by
    show MongoStore.duplicateKey.eq MongoStore.duplicateKey = true
    decide +kernel
  dsimp only
  rw [hduplicate, if_pos rfl]
  exact Evaluates.pure _ _

theorem evaluates_update {settings : Settings}
    (hrun : MongoStore.send client now (.updateOne ⟨.one (.text key), none⟩
      ⟨value, MongoStore.expiry now ttl⟩ upsert settings.timeout) s = ⟨.ok reply, s', []⟩) :
    Evaluates (MongoStore.update client settings now (.text key) value (.number ttl) upsert) s
      reply s' :=
  evaluates_call "updateOne" hrun

theorem evaluates_touch_of_matched {settings : Settings} (hhas : Has documents s held)
    (hrun : MongoStore.send client now (.updateOne ⟨.one (.text key), none⟩
      ⟨none, MongoStore.expiry now ttl⟩ false settings.timeout) s =
        ⟨.ok (matched count), s', []⟩) :
    Evaluates (MongoStore.store client settings now (.touch (.text key) (.number ttl))) s
      (if Binary64.zero.lt (ofNat count) then TouchResult.touched else TouchResult.notFound).value
      s' :=
  (evaluates_require hhas).bind ((evaluates_update hrun).bind (Evaluates.bind ⟨[], rfl⟩
    (Evaluates.pure _ _)))

theorem evaluates_set_of_ok {settings : Settings} (hhas : Has documents s held)
    (hrun : MongoStore.send client now (.updateOne ⟨.one (.text key), none⟩
      ⟨some value, MongoStore.expiry now ttl⟩ true settings.timeout) s = ⟨.ok reply, s', []⟩) :
    Evaluates (MongoStore.store client settings now (.set (.text key) value (.number ttl))) s
      .undefined s' :=
  (evaluates_require hhas).bind ((evaluates_update hrun).bind (Evaluates.pure _ _))

theorem evaluates_get_of_ok {settings : Settings} (hhas : Has documents s held)
    (hrun : MongoStore.send client now
      (.findOne (MongoStore.live now (.one (.text key))) settings.timeout) s =
        ⟨.ok document, s', []⟩) :
    Evaluates (MongoStore.store client settings now (.get (.text key))) s
      (if document.truthy then document.field "value" else .null) s' :=
  (evaluates_require hhas).bind ((evaluates_call "findOne" hrun).bind (Evaluates.pure _ _))

theorem evaluates_increment_none (h : Acts client documents) (settings : Settings) (now : Binary64)
    (hhas : Has documents s held) (hnone : held key = none) :
    ∃ left s', Purged now held left ∧
      Evaluates (MongoStore.store client settings now (.increment (.text key))) s .null s' ∧
      Has documents s' left := by
  obtain ⟨left, reply, s', hpurged, hrun, hagrees, hhas'⟩ :=
    h.run_send hhas now (.findOneAndIncrement ⟨.one (.text key), none⟩ settings.timeout)
  have hserve : serve (.findOneAndIncrement ⟨.one (.text key), none⟩ settings.timeout) left =
      (.ok .null, left) := by
    simp only [serve, increment, matching_one_none (hpurged.of_none hnone)]
  rw [hserve] at hagrees hhas'
  cases hagrees.eq rfl
  exact ⟨left, s', hpurged, evaluates_increment_of_null hhas hrun, hhas'⟩

theorem evaluates_increment_some (h : Acts client documents) (settings : Settings)
    (hhas : Has documents s held) (hsome : held key = some ⟨.number x, expiresAt⟩)
    (hexpired : Document.isExpired ⟨.number x, expiresAt⟩ now = false) :
    ∃ left s', Purged now held left ∧
      Evaluates (MongoStore.store client settings now (.increment (.text key))) s
        (.number (x + 1)) s' ∧ Has documents s' (put left key ⟨.number (x + 1), expiresAt⟩) := by
  obtain ⟨left, reply, s', hpurged, hrun, hagrees, hhas'⟩ :=
    h.run_send hhas now (.findOneAndIncrement ⟨.one (.text key), none⟩ settings.timeout)
  have hserve : serve (.findOneAndIncrement ⟨.one (.text key), none⟩ settings.timeout) left =
      (.ok (record key ⟨.number (x + 1), expiresAt⟩),
        put left key ⟨.number (x + 1), expiresAt⟩) := by
    simp only [serve, increment, matching_one_some (hpurged.of_some hsome hexpired)]
  rw [hserve] at hagrees hhas'
  cases hagrees.eq rfl
  exact ⟨left, s', hpurged, evaluates_increment_of_record hhas hrun, hhas'⟩

theorem evaluates_addIfAbsent (h : Acts client documents) (settings : Settings) (now : Binary64)
    (hhas : Has documents s held) (hnone : held key = none) (value : Value) (ttl : Binary64) :
    ∃ left s', Purged now held left ∧
      Evaluates (MongoStore.store client settings now (.addIfAbsent (.text key) value (.number ttl)))
        s (.bool true) s' ∧
      Has documents s' (put left key ⟨value, MongoStore.expiry now ttl⟩) := by
  obtain ⟨left, reply, s', hpurged, hrun, hagrees, hhas'⟩ :=
    h.run_send hhas now (.create (.text key) value (MongoStore.expiry now ttl))
  have hserve : serve (.create (.text key) value (MongoStore.expiry now ttl)) left =
      (.ok (record key ⟨value, MongoStore.expiry now ttl⟩),
        put left key ⟨value, MongoStore.expiry now ttl⟩) := by
    simp only [serve, create, Value.asText_text, hpurged.of_none hnone]
  rw [hserve] at hagrees hhas'
  cases hagrees.eq rfl
  exact ⟨left, s', hpurged,
    evaluates_addIfAbsent_of_ok settings hhas hrun, hhas'⟩

end

-- ---------------------------------------------------------------------------
-- Many documents
-- ---------------------------------------------------------------------------

def Shows (item : Value) (entry : String × Value) : Prop :=
  item.property "_id" = .ok (.text entry.1) ∧ item.field "value" = entry.2

theorem shows_record (id : String) (document : Document) :
    Shows (record id document) (id, document.value) := ⟨rfl, rfl⟩

theorem entriesOf_shows {items : List Value} {found : List (String × Value)}
    (h : List.Forall₂ Shows items found) :
    MongoStore.entriesOf items =
      .ok ((Key.ofEach (found.map fun entry => .text entry.1)).zip (found.map Prod.snd)) := by
  have hids : items.mapM (fun item => item.property "_id") =
      .ok (found.map fun entry => .text entry.1) := by
    induction h with
    | nil => rfl
    | cons hitem _ ih =>
      rw [List.mapM_cons, hitem.1, ih]
      rfl
  have hvalues : items.map (fun item => item.field "value") = found.map Prod.snd := by
    clear hids
    induction h with
    | nil => rfl
    | cons hitem _ ih => rw [List.map_cons, List.map_cons, hitem.2, ih]
  unfold MongoStore.entriesOf
  rw [hids, hvalues]
  rfl

def value? (documents : Documents) (now : Binary64) (id : String) : Option Value :=
  ((documents id).filter (admits (some (.ofNumber now)))).map Document.value

def found (documents : Documents) (now : Binary64) (keys : List String) : List (String × Value) :=
  foundBy (value? documents now) keys

theorem nodup_found {keys : List String} (hnodup : keys.Nodup) (documents : Documents)
    (now : Binary64) : ((found documents now keys).map Prod.fst).Nodup :=
  (foundBy_sublist (value? documents now) keys).nodup hnodup

theorem map_matching_live (documents : Documents) (now : Binary64) (keys : List String) :
    (matching documents (MongoStore.live now (.among (.list (keys.map .text))))).map
      (fun entry => (entry.1, entry.2.value)) = found documents now keys.dedup := by
  have hids : idsOf (.among (.list (keys.map .text))) = keys.dedup := by
    simp only [idsOf, List.filterMap_map]
    rw [show Value.toText? ∘ Value.text = some from rfl, List.filterMap_some]
  simp only [matching, MongoStore.live, hids, found, foundBy, value?, List.map_filterMap,
    Option.map_map]
  rfl

section
variable {κ : Type} {client : Client κ} {documents : κ → Documents} {s s' : MongoStore.State κ}
  {now : Binary64} {held : Documents} {keys : List String}

theorem evaluates_getMulti_nil (client : Client κ) (settings : Settings) (now : Binary64)
    (hhas : Has documents s held) :
    Evaluates (MongoStore.store client settings now (.getMulti (.list []))) s (.table []) s := by
  refine (evaluates_require hhas).bind (Evaluates.bind (Evaluates.pure _ _) ?_)
  rw [isNumber_length, List.isEmpty_nil, if_pos rfl]
  exact Evaluates.pure _ _

theorem evaluates_getMulti_of_find {settings : Settings} (hhas : Has documents s held)
    (hne : keys ≠ []) {shown : List (String × Value)}
    (hrun : MongoStore.send client now
      (.find (MongoStore.live now (.among (.list (keys.map .text)))) settings.timeout) s =
        ⟨.ok (.list items), s', []⟩)
    (hitems : List.Forall₂ Shows items shown) (hnodup : (shown.map Prod.fst).Nodup) :
    Evaluates (MongoStore.store client settings now (.getMulti (.list (keys.map .text)))) s
      (.table (shown.map fun entry => (.text entry.1, entry.2))) s' := by
  have hlength : ¬(Value.number (ofNat (keys.map Value.text).length)).isNumber .zero = true := by
    rw [isNumber_length, List.isEmpty_map, List.isEmpty_iff]
    exact hne
  have hentries : (do MongoStore.entriesOf (← (Value.list items).iterate "records")) =
      .ok ((Key.ofEach (shown.map fun entry => .text entry.1)).zip (shown.map Prod.snd)) :=
    entriesOf_shows hitems
  refine (evaluates_require hhas).bind (Evaluates.bind (Evaluates.pure _ _) ?_)
  rw [if_neg hlength, ← entriesOf_texts (sameEntry_zip shown) hnodup]
  refine (evaluates_call "find" hrun).bind (Evaluates.bind ?_ (Evaluates.pure _ _))
  rw [hentries]
  exact Evaluates.pure _ _

theorem shows_matching (documents : Documents) (now : Binary64) (keys : List String) :
    List.Forall₂ Shows
      ((matching documents (MongoStore.live now (.among (.list (keys.map .text))))).map
        fun entry => record entry.1 entry.2) (found documents now keys.dedup) := by
  rw [← map_matching_live documents now keys, List.forall₂_map_left_iff,
    List.forall₂_map_right_iff, List.forall₂_same]
  exact fun entry _ => shows_record entry.1 entry.2

theorem Leaves.evaluates_getMulti {left : Binary64 → Command → κ → Documents}
    (h : Leaves client documents left) (settings : Settings) (hhas : Has documents s held)
    (now : Binary64) (keys : List String) :
    ∃ rest, ∃ shown : List (String × Value), ∃ s', Purged now held rest ∧
      shown.Perm (found rest now keys.dedup) ∧
      Evaluates (MongoStore.store client settings now (.getMulti (.list (keys.map .text)))) s
        (.table (shown.map fun entry => (.text entry.1, entry.2))) s' ∧
      Has documents s' rest := by
  by_cases hempty : keys = []
  · subst hempty
    exact ⟨held, [], s, .refl _ _, .refl _, evaluates_getMulti_nil client settings now hhas, hhas⟩
  obtain ⟨reply, s', hpurged, hrun, hagrees, hhas'⟩ := h.run_send hhas now
    (.find (MongoStore.live now (.among (.list (keys.map .text)))) settings.timeout)
  obtain ⟨items, rfl, hperm⟩ := hagrees.list
  obtain ⟨shown, hitems, hshown⟩ :=
    List.perm_comp_forall₂ hperm (shows_matching (left now _ s.client) now keys)
  exact ⟨_, shown, s', hpurged, hshown, evaluates_getMulti_of_find hhas hempty hrun hitems
    ((hshown.map Prod.fst).nodup_iff.mpr (nodup_found keys.nodup_dedup _ now)), hhas'⟩

theorem evaluates_getMulti (h : Acts client documents) (settings : Settings)
    (hhas : Has documents s held) (hnodup : keys.Nodup)
    (hfound : ∀ left, Purged now held left → found left now keys = shown) :
    ∃ left, ∃ shown' : List (String × Value), ∃ s', Purged now held left ∧ shown'.Perm shown ∧
      Evaluates (MongoStore.store client settings now (.getMulti (.list (keys.map .text)))) s
        (.table (shown'.map fun entry => (.text entry.1, entry.2))) s' ∧
      Has documents s' left := by
  obtain ⟨left, hleaves⟩ := h.exists_leaves
  obtain ⟨rest, shown', s', hpurged, hshown, hrun, hhas'⟩ :=
    hleaves.evaluates_getMulti settings hhas now keys
  rw [hnodup.dedup, hfound rest hpurged] at hshown
  exact ⟨rest, shown', s', hpurged, hshown, hrun, hhas'⟩

end

theorem evaluates_getMulti_lingering {s : MongoStore.State Documents} (settings : Settings)
    (now : Binary64) (hhas : Has (fun documents => documents) s held) {keys : List String}
    (hnodup : keys.Nodup) :
    Evaluates (MongoStore.store lingering settings now (.getMulti (.list (keys.map .text)))) s
      (.table ((found held now keys).map fun entry => (.text entry.1, entry.2))) s := by
  by_cases hempty : keys = []
  · subst hempty
    exact evaluates_getMulti_nil lingering settings now hhas
  · have hshows := shows_matching s.client now keys
    rw [hnodup.dedup] at hshows
    rw [← hhas.documents]
    exact evaluates_getMulti_of_find hhas hempty rfl hshows (nodup_found hnodup s.client now)

end DocumentDatabase

end SlidingTally
