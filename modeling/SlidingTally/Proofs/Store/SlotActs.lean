import SlidingTally.Proofs.Store.DocumentDatabase
import SlidingTally.Proofs.Store.ExpiringCalls

/-!
# Acts on a key

What a store has of a key is a slot, and `Act.effect` says what an act replies and writes by the
slot that it sees. The expiring map and the store over documents both act by it: the map sees the
slots that are not expired, and a store over documents whatever is not removed, but for a read.
Main statements: `Holds.evaluates_on` and `evaluates_on`.
-/

namespace SlidingTally.SlotActs

open SlidingTally.Action (Evaluates)
open DocumentDatabase (Agrees Document Documents Has Leaves Purged admits duplicate idsOf matched
  matching put record serve)
open MongoStore (Client Command Settings)

-- ---------------------------------------------------------------------------
-- Operations
-- ---------------------------------------------------------------------------

inductive Act where
  | increment
  | addIfAbsent (value ttl : Binary64)
  | touch (ttl : Binary64)
  | set (value ttl : Binary64)
  | get

inductive Operation where
  | on (key : String) (act : Act)
  | getMulti (keys : List String)

abbrev Step : Type := Binary64 × Operation

def Act.call (key : String) : Act → StoreCall
  | .increment => .increment (.text key)
  | .addIfAbsent value ttl => .addIfAbsent (.text key) (.number value) (.number ttl)
  | .touch ttl => .touch (.text key) (.number ttl)
  | .set value ttl => .set (.text key) (.number value) (.number ttl)
  | .get => .get (.text key)

def Operation.call : Operation → StoreCall
  | .on key act => act.call key
  | .getMulti keys => .getMulti (.list (keys.map .text))

def Operation.keys : Operation → List String
  | .on key _ => [key]
  | .getMulti keys => keys

def perform (client : Client κ) (settings : Settings) (step : Step) :
    StoreAction (MongoStore.State κ) Value :=
  MongoStore.store client settings step.1 step.2.call

def existingOnly : MemoryStore.Options := { createsOnIncrement := .bool false }

def performInMemory (step : Step) : StoreAction MemoryStore.State Value :=
  MemoryStore.store existingOnly step.1 step.2.call

def performIdeal (step : Step) : StoreAction ExpiringMap.State Value :=
  ExpiringMap.store existingOnly step.1 step.2.call

-- ---------------------------------------------------------------------------
-- Whole milliseconds
-- ---------------------------------------------------------------------------

def IsDate (x : Binary64) : Prop := ∃ n : Int, x.Is n ∧ n.natAbs ≤ Instant.limit

/-- A time to live of whole milliseconds from a reading on, which ends at an instant. -/
def Timed (n : Int) (ttl : Binary64) : Prop :=
  ∃ k : Int, (ttl * 1000).Is k ∧ (Binary64.zero.lt ttl = true → (n + k).natAbs ≤ Instant.limit)

def Act.Whole (n : Int) : Act → Prop
  | .increment => True
  | .addIfAbsent value ttl => value.isInteger = true ∧ Timed n ttl
  | .touch ttl => Timed n ttl
  | .set value ttl => value.isInteger = true ∧ Timed n ttl
  | .get => True

def Operation.Whole (n : Int) : Operation → Prop
  | .on _ act => act.Whole n
  | .getMulti _ => True

/-- Whole milliseconds throughout, and values that are integers. -/
def WholeStep (step : Step) : Prop :=
  ∃ n : Int, step.1.Is n ∧ n.natAbs ≤ Instant.limit ∧ step.2.Whole n

theorem before_ofNumber (hx : IsDate x) (hy : IsDate y) :
    (Instant.ofNumber x).before (Instant.ofNumber y) = x.lt y := by
  obtain ⟨m, hm, hmlimit⟩ := hx
  obtain ⟨n, hn, hnlimit⟩ := hy
  rw [Instant.ofNumber_is hm hmlimit, Instant.ofNumber_is hn hnlimit, Bool.eq_iff_iff, hm.lt_iff hn]
  exact decide_eq_true_iff

theorem Timed.isDate (h : Timed n ttl) (hnow : now.Is n)
    (hexpiry : ExpiringMap.expiry now ttl = some instant) : IsDate instant := by
  obtain ⟨k, hk, hlimit⟩ := h
  unfold ExpiringMap.expiry at hexpiry
  split at hexpiry
  · rename_i hpos
    cases hexpiry
    have hsum := hlimit hpos
    have hbound : Instant.limit = 8640000000000000 := rfl
    exact ⟨n + k, hnow.add hk (by omega), hsum⟩
  · cases hexpiry

-- ---------------------------------------------------------------------------
-- Slots
-- ---------------------------------------------------------------------------

structure Slot where
  value : Binary64
  expiresAt : Option Binary64

namespace Slot

def document (slot : Slot) : Document := ⟨.number slot.value, slot.expiresAt.map .ofNumber⟩

def held (slot : Slot) : ExpiringMap.Held := ⟨.number slot.value, slot.expiresAt⟩

def isPresent (now : Binary64) (slot : Slot) : Bool := slot.held.isPresent now

structure Whole (slot : Slot) : Prop where
  value : slot.value.isInteger = true
  expiresAt : ∀ instant, slot.expiresAt = some instant → IsDate instant

theorem isPresent_of_later {slot : Slot} (hle : now.le later = true)
    (h : slot.isPresent later = true) : slot.isPresent now = true := by
  obtain ⟨value, expiresAt⟩ := slot
  cases expiresAt with
  | none => rfl
  | some instant => exact Binary64.lt_of_le_of_lt hle h

theorem admits_document {slot : Slot} (h : slot.Whole) (hnow : IsDate now) :
    admits (some (.ofNumber now)) slot.document = slot.isPresent now := by
  obtain ⟨value, expiresAt⟩ := slot
  cases expiresAt with
  | none => rfl
  | some instant => exact before_ofNumber hnow (h.expiresAt instant rfl)

theorem isExpired_document {slot : Slot} (h : slot.Whole) (hnow : IsDate now) :
    slot.document.isExpired now = !slot.isPresent now := by
  rw [← admits_document h hnow]
  obtain ⟨value, expiresAt⟩ := slot
  cases expiresAt with
  | none => rfl
  | some instant => rfl

end Slot

abbrev Slots : Type := String → Option Slot

namespace Slots

variable {slots rest : Slots} {now later : Binary64} {key other : String}

def Whole (slots : Slots) : Prop := ∀ key slot, slots key = some slot → slot.Whole

def empty : Slots := fun _ => none

theorem whole_empty : empty.Whole := fun _ _ h => nomatch h

def visible (slots : Slots) (now : Binary64) (key : String) : Option Slot :=
  (slots key).filter (Slot.isPresent now)

def write (slots : Slots) (key : String) : Option Slot → Slots
  | none => slots
  | some slot => Function.update slots key (some slot)

def documents (slots : Slots) : Documents := fun key => (slots key).map Slot.document

theorem visible_write_self (slot : Slot) :
    (slots.write key (some slot)).visible now key = (some slot).filter (Slot.isPresent now) := by
  rw [visible, write, Function.update_self]

theorem visible_write_of_ne (written : Option Slot) (h : other ≠ key) :
    (slots.write key written).visible now other = slots.visible now other := by
  cases written with
  | none => rfl
  | some slot => rw [visible, write, Function.update_of_ne h, visible]

theorem documents_write (slot : Slot) :
    (slots.write key (some slot)).documents = put slots.documents key slot.document := by
  funext other
  by_cases h : other = key
  · subst h
    simp [documents, write, put]
  · simp [documents, write, put, Function.update_of_ne h]

theorem Whole.write (h : slots.Whole) (hwritten : ∀ slot, written = some slot → slot.Whole) :
    (slots.write key written).Whole := by
  cases written with
  | none => exact h
  | some new =>
    intro other slot hslot
    by_cases hkey : other = key
    · rw [hkey, Slots.write, Function.update_self] at hslot
      exact hwritten slot hslot
    · rw [Slots.write, Function.update_of_ne hkey] at hslot
      exact h other slot hslot

theorem visible_later (hle : now.le later = true) :
    slots.visible later key = (slots.visible now key).filter (Slot.isPresent later) := by
  rw [visible, visible, Option.filter_filter]
  congr 1
  funext slot
  cases hlater : slot.isPresent later with
  | false => rw [Bool.and_false]
  | true => rw [Slot.isPresent_of_later hle hlater, Bool.true_and]

theorem exists_rest (h : slots.Whole) (hnow : IsDate now) (hpurged : Purged now slots.documents left) :
    ∃ rest : Slots, left = rest.documents ∧ rest.Whole ∧
      ∀ key, rest.visible now key = slots.visible now key := by
  refine ⟨fun key => (left key).bind fun _ => slots key, ?_, ?_, ?_⟩
  · funext key
    rcases hpurged key with hsame | ⟨hgone, -⟩
    · rw [documents, hsame, documents]
      cases slots key <;> rfl
    · rw [documents, hgone]
      rfl
  · intro key slot hslot
    obtain ⟨document, -, hslot⟩ := Option.bind_eq_some_iff.mp hslot
    exact h key slot hslot
  · intro key
    rcases hpurged key with hsame | ⟨hgone, document, hdocument, hexpired⟩
    · rw [visible, visible, hsame, documents]
      cases slots key <;> rfl
    · obtain ⟨slot, hslot, rfl⟩ := Option.map_eq_some_iff.mp hdocument
      rw [Slot.isExpired_document (h key slot hslot) hnow] at hexpired
      rw [visible, visible, hgone, hslot]
      simp_all [Option.filter]

end Slots

def Act.effect (now : Binary64) : Act → Option Slot → Value × Option Slot
  | .increment, none => (.null, none)
  | .increment, some slot =>
    (.number (slot.value + 1), some ⟨slot.value + 1, slot.expiresAt⟩)
  | .addIfAbsent value ttl, none => (.bool true, some ⟨value, ExpiringMap.expiry now ttl⟩)
  | .addIfAbsent _ _, some _ => (.bool false, none)
  | .touch _, none => (TouchResult.notFound.value, none)
  | .touch ttl, some slot =>
    (TouchResult.touched.value, some ⟨slot.value, ExpiringMap.expiry now ttl⟩)
  | .set value ttl, _ => (.undefined, some ⟨value, ExpiringMap.expiry now ttl⟩)
  | .get, none => (.null, none)
  | .get, some slot => (.number slot.value, none)

def Act.sees (now : Binary64) : Act → Option Slot → Option Slot
  | .get, slot => slot.filter (Slot.isPresent now)
  | _, slot => slot

theorem Act.of_sees {act : Act} (h : act.sees now given = some slot) : given = some slot := by
  cases act with
  | get => exact (Option.filter_eq_some_iff.mp h).1
  | _ => exact h

theorem Act.effect_whole (hnow : now.Is n) {act : Act} (hact : act.Whole n)
    (hslot : ∀ slot, seen = some slot → slot.Whole) :
    ∀ slot, (act.effect now seen).2 = some slot → slot.Whole := by
  intro written hwritten
  cases act with
  | increment =>
    cases seen with
    | none => cases hwritten
    | some slot =>
      cases hwritten
      exact ⟨Binary64.isInteger_add_one (hslot slot rfl).value, (hslot slot rfl).expiresAt⟩
  | addIfAbsent value ttl =>
    cases seen with
    | none =>
      cases hwritten
      exact ⟨hact.1, fun _ => hact.2.isDate hnow⟩
    | some slot => cases hwritten
  | touch ttl =>
    cases seen with
    | none => cases hwritten
    | some slot =>
      cases hwritten
      exact ⟨(hslot slot rfl).value, fun _ => Timed.isDate hact hnow⟩
  | set value ttl =>
    cases hwritten
    exact ⟨hact.1, fun _ => hact.2.isDate hnow⟩
  | get => cases seen <;> cases hwritten

-- ---------------------------------------------------------------------------
-- The map
-- ---------------------------------------------------------------------------

structure Holds (m : ExpiringMap.State) (slots : Slots) : Prop where
  initialized : m.initialized = true
  held : ∀ key, m.held (.text key) = (slots key).map Slot.held

section
variable {m : ExpiringMap.State} {slots : Slots} {now : Binary64}

theorem Holds.find? (h : Holds m slots) (now : Binary64) (key : String) :
    m.find? now (.text key) = (slots.visible now key).map Slot.held := by
  rw [ExpiringMap.State.find?, Key.identity_text, h.held, Slots.visible, Option.filter_map]
  rfl

theorem Holds.put (h : Holds m slots) (key : String) (slot : Slot) :
    Holds (m.put (.text key) slot.held) (slots.write key (some slot)) := by
  refine ⟨h.initialized, fun other => ?_⟩
  by_cases hkey : other = key
  · subst hkey
    simp [ExpiringMap.State.put, Slots.write]
  · simp [ExpiringMap.State.put, Slots.write, hkey, h.held]

theorem Holds.evaluates_on (h : Holds m slots) (hwhole : slots.Whole) (now : Binary64)
    (key : String) (act : Act) :
    ∃ m', Evaluates (performIdeal (now, .on key act)) m
        (act.effect now (slots.visible now key)).1 m' ∧
      Holds m' (slots.write key (act.effect now (slots.visible now key)).2) := by
  have hfind := h.find? now key
  have hinteger (slot : Slot) (hslot : slots.visible now key = some slot) :
      slot.value.isInteger = true :=
    (hwhole key slot (Option.filter_eq_some_iff.mp hslot).1).value
  cases hslot : slots.visible now key with
  | none =>
    rw [hslot] at hfind
    cases act with
    | increment =>
      exact ⟨m, ExpiringMap.evaluates_increment_null h.initialized hfind rfl, h⟩
    | addIfAbsent value ttl =>
      exact ⟨_, ExpiringMap.evaluates_addIfAbsent existingOnly (.number value) ttl h.initialized
        hfind, h.put key ⟨value, ExpiringMap.expiry now ttl⟩⟩
    | touch ttl =>
      exact ⟨m, ExpiringMap.evaluates_touch_none h.initialized hfind rfl _, h⟩
    | set value ttl =>
      exact ⟨_, ExpiringMap.evaluates_set existingOnly now (.text key) (.number value) ttl
        h.initialized, h.put key ⟨value, ExpiringMap.expiry now ttl⟩⟩
    | get =>
      have hget := ExpiringMap.evaluates_get existingOnly now (.text key) h.initialized
      rw [hfind] at hget
      exact ⟨m, hget, h⟩
  | some slot =>
    rw [hslot] at hfind
    cases act with
    | increment =>
      exact ⟨_, ExpiringMap.evaluates_increment_some existingOnly h.initialized hfind
        (hinteger slot hslot), h.put key ⟨slot.value + 1, slot.expiresAt⟩⟩
    | addIfAbsent value ttl =>
      exact ⟨m, ExpiringMap.evaluates_addIfAbsent_some existingOnly _ _ h.initialized hfind, h⟩
    | touch ttl =>
      exact ⟨_, ExpiringMap.evaluates_touch h.initialized hfind rfl ttl,
        h.put key ⟨slot.value, ExpiringMap.expiry now ttl⟩⟩
    | set value ttl =>
      exact ⟨_, ExpiringMap.evaluates_set existingOnly now (.text key) (.number value) ttl
        h.initialized, h.put key ⟨value, ExpiringMap.expiry now ttl⟩⟩
    | get =>
      have hget := ExpiringMap.evaluates_get existingOnly now (.text key) h.initialized
      rw [hfind] at hget
      exact ⟨m, hget, h⟩

end

-- ---------------------------------------------------------------------------
-- The documents
-- ---------------------------------------------------------------------------

def Act.command (settings : Settings) (now : Binary64) (key : String) : Act → Command
  | .increment => .findOneAndIncrement ⟨.one (.text key), none⟩ settings.timeout
  | .addIfAbsent value ttl => .create (.text key) (.number value) (MongoStore.expiry now ttl)
  | .touch ttl =>
    .updateOne ⟨.one (.text key), none⟩ ⟨none, MongoStore.expiry now ttl⟩ false settings.timeout
  | .set value ttl =>
    .updateOne ⟨.one (.text key), none⟩ ⟨some (.number value), MongoStore.expiry now ttl⟩ true
      settings.timeout
  | .get => .findOne (MongoStore.live now (.one (.text key))) settings.timeout

theorem expiry_eq (now ttl : Binary64) :
    MongoStore.expiry now ttl = (ExpiringMap.expiry now ttl).map .ofNumber := by
  unfold MongoStore.expiry ExpiringMap.expiry
  split <;> rfl

def Act.answer (key : String) (now : Binary64) : Act → Option Slot → Except Fault Value
  | .increment, none => .ok .null
  | .increment, some slot => .ok (record key (Slot.document ⟨slot.value + 1, slot.expiresAt⟩))
  | .addIfAbsent value ttl, none =>
    .ok (record key (Slot.document ⟨value, ExpiringMap.expiry now ttl⟩))
  | .addIfAbsent _ _, some _ => .error duplicate
  | .touch _, seen => .ok (matched (if seen.isSome then 1 else 0))
  | .set _ _, seen => .ok (matched (if seen.isSome then 1 else 0))
  | .get, none => .ok .null
  | .get, some slot => .ok (record key slot.document)

section
variable {slots : Slots} {now : Binary64} {key : String}

theorem documents_none (h : slots key = none) : slots.documents key = none := by
  rw [Slots.documents, h]
  rfl

theorem documents_some (h : slots key = some slot) :
    slots.documents key = some slot.document := by
  rw [Slots.documents, h]
  rfl

theorem matching_live (hwhole : slots.Whole) (hnow : IsDate now) (key : String) :
    matching slots.documents (MongoStore.live now (.one (.text key))) =
      (slots.visible now key).toList.map fun slot => (key, slot.document) := by
  cases hslot : slots key with
  | none => simp [matching, MongoStore.live, idsOf, documents_none hslot, Slots.visible, hslot]
  | some slot =>
    have hadmits := Slot.admits_document (hwhole key slot hslot) hnow
    cases hpresent : slot.isPresent now <;>
      simp [matching, MongoStore.live, idsOf, documents_some hslot, Slots.visible, hslot,
        Option.filter, hadmits, hpresent]

theorem serve_act (hwhole : slots.Whole) (hnow : IsDate now) (settings : Settings) (key : String)
    (act : Act) :
    serve (act.command settings now key) slots.documents =
      (act.answer key now (act.sees now (slots key)),
        (slots.write key (act.effect now (act.sees now (slots key))).2).documents) := by
  cases act with
  | get =>
    simp only [Act.command, serve, matching_live hwhole hnow]
    rw [show Act.get.sees now (slots key) = slots.visible now key from rfl]
    cases slots.visible now key <;> rfl
  | increment =>
    cases hslot : slots key with
    | none =>
      simp only [Act.command, serve, DocumentDatabase.increment,
        DocumentDatabase.matching_one_none (documents_none hslot)]
      rfl
    | some slot =>
      simp only [Act.command, serve, DocumentDatabase.increment,
        DocumentDatabase.matching_one_some (documents_some hslot)]
      simp only [Slot.document, Act.sees, Act.answer, Act.effect, Slots.documents_write]
  | addIfAbsent value ttl =>
    cases hslot : slots key with
    | none =>
      simp only [Act.command, serve, DocumentDatabase.create, Value.asText_text,
        documents_none hslot, expiry_eq, Act.sees, Act.answer, Act.effect, Slots.documents_write,
        Slot.document]
    | some slot =>
      simp only [Act.command, serve, DocumentDatabase.create, Value.asText_text,
        documents_some hslot]
      rfl
  | touch ttl =>
    cases hslot : slots key with
    | none =>
      simp only [Act.command, serve, DocumentDatabase.updateOne,
        DocumentDatabase.matching_one_none (documents_none hslot)]
      rfl
    | some slot =>
      simp only [Act.command, serve, DocumentDatabase.updateOne,
        DocumentDatabase.matching_one_some (documents_some hslot), expiry_eq, Act.sees, Act.answer,
        Act.effect, Slots.documents_write, Slot.document]
      rfl
  | set value ttl =>
    cases hslot : slots key with
    | none =>
      simp only [Act.command, serve, DocumentDatabase.updateOne,
        DocumentDatabase.matching_one_none (documents_none hslot), expiry_eq, Act.sees, Act.answer,
        Act.effect, Slots.documents_write, Slot.document]
      rfl
    | some slot =>
      simp only [Act.command, serve, DocumentDatabase.updateOne,
        DocumentDatabase.matching_one_some (documents_some hslot), expiry_eq, Act.sees, Act.answer,
        Act.effect, Slots.documents_write, Slot.document]
      rfl

end

section
variable {κ : Type} {client : Client κ} {documents : κ → Documents} {s s' : MongoStore.State κ}
  {now : Binary64} {key : String} {held : Documents}

theorem evaluates_of_answer {settings : Settings} (hhas : Has documents s held) {act : Act}
    (hrun : MongoStore.send client now (act.command settings now key) s = ⟨reply, s', []⟩)
    (hagrees : Agrees reply (act.answer key now seen)) :
    Evaluates (perform client settings (now, .on key act)) s (act.effect now seen).1 s' := by
  cases act with
  | increment =>
    cases seen with
    | none =>
      cases hagrees.eq rfl
      exact DocumentDatabase.evaluates_increment_of_null hhas hrun
    | some slot =>
      cases hagrees.eq rfl
      exact DocumentDatabase.evaluates_increment_of_record hhas hrun
  | addIfAbsent value ttl =>
    cases seen with
    | none =>
      cases hagrees.eq rfl
      exact DocumentDatabase.evaluates_addIfAbsent_of_ok settings hhas hrun
    | some slot =>
      obtain ⟨message, rfl⟩ := hagrees.duplicate
      exact DocumentDatabase.evaluates_addIfAbsent_of_duplicate settings hhas hrun
  | touch ttl =>
    cases hagrees.eq rfl
    have htouch := DocumentDatabase.evaluates_touch_of_matched hhas hrun
    cases seen with
    | none => rwa [if_neg (by decide +kernel)] at htouch
    | some slot =>
      have hone : Binary64.zero.lt (Binary64.ofNat 1) = true := by decide +kernel
      simp only [Option.isSome_some, reduceIte, hone] at htouch
      exact htouch
  | set value ttl =>
    cases hagrees.eq rfl
    exact DocumentDatabase.evaluates_set_of_ok hhas hrun
  | get =>
    cases seen with
    | none =>
      cases hagrees.eq rfl
      exact DocumentDatabase.evaluates_get_of_ok hhas hrun
    | some slot =>
      cases hagrees.eq rfl
      exact DocumentDatabase.evaluates_get_of_ok hhas hrun

variable {left : Binary64 → Command → κ → Documents} {slots : Slots}

theorem evaluates_on (h : Leaves client documents left) (settings : Settings)
    (hhas : Has documents s slots.documents) (hwhole : slots.Whole) (hnow : IsDate now)
    (key : String) (act : Act) :
    ∃ rest : Slots, ∃ s', rest.Whole ∧
      (∀ other, rest.visible now other = slots.visible now other) ∧
      left now (act.command settings now key) s.client = rest.documents ∧
      Evaluates (perform client settings (now, .on key act)) s
        (act.effect now (act.sees now (rest key))).1 s' ∧
      Has documents s'
        (rest.write key (act.effect now (act.sees now (rest key))).2).documents := by
  obtain ⟨reply, s', hpurged, hrun, hagrees, hhas'⟩ :=
    h.run_send hhas now (act.command settings now key)
  obtain ⟨rest, hleft, hrest, hvisible⟩ := Slots.exists_rest hwhole hnow hpurged
  rw [hleft, serve_act hrest hnow] at hagrees hhas'
  exact ⟨rest, s', hrest, hvisible, hleft, evaluates_of_answer hhas hrun hagrees, hhas'⟩

end

-- ---------------------------------------------------------------------------
-- Many keys
-- ---------------------------------------------------------------------------

def Slots.look (slots : Slots) (now : Binary64) (key : String) : Option Value :=
  (slots.visible now key).map fun slot => .number slot.value

section
variable {slots ideal : Slots} {now : Binary64} {keys : List String}

theorem foundBy_look_congr (h : ∀ key ∈ keys, slots.visible now key = ideal.visible now key) :
    foundBy (slots.look now) keys = foundBy (ideal.look now) keys := by
  refine List.filterMap_congr fun key hmem => ?_
  rw [Slots.look, Slots.look, h key hmem]

theorem found_documents (hwhole : slots.Whole) (hnow : IsDate now) (keys : List String) :
    DocumentDatabase.found slots.documents now keys = foundBy (slots.look now) keys := by
  unfold DocumentDatabase.found
  congr 1
  funext key
  rw [DocumentDatabase.value?, Slots.look, Slots.visible]
  cases hslot : slots key with
  | none => rw [documents_none hslot]; rfl
  | some slot =>
    rw [documents_some hslot]
    simp only [Option.filter, Slot.admits_document (hwhole key slot hslot) hnow]
    cases slot.isPresent now <;> rfl

theorem Holds.evaluates_getMulti {m : ExpiringMap.State} (h : Holds m slots) (now : Binary64)
    (keys : List String) :
    Evaluates (performIdeal (now, .getMulti keys)) m
      (.table (Value.entriesOf
        ((foundBy (slots.look now) keys).map fun entry => (Key.text entry.1, entry.2)))) m := by
  have hfound : (keys.map Key.text).filterMap (ExpiringMap.found? m now) =
      (foundBy (slots.look now) keys).map fun entry => (Key.text entry.1, entry.2) := by
    rw [foundBy, List.map_filterMap, List.filterMap_map]
    refine List.filterMap_congr fun key _ => ?_
    simp only [Function.comp, ExpiringMap.found?, h.find? now key, Slots.look, Option.map_map]
    rfl
  rw [← hfound]
  exact ExpiringMap.evaluates_getMulti existingOnly now h.initialized keys

end

end SlidingTally.SlotActs
