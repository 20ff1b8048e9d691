import Mathlib.Data.List.Induction
import SlidingTally.Proofs.Store.ClientFaults

/-!
# Reads of many keys

A cluster is asked for many keys one by one, a single node for all of them at once. Either way a key
is found with its own value, however often it is asked for, and a cluster leaves out those whose
reads failed. Main statement: `RedisStore.getMulti_gathers`.
-/

namespace SlidingTally

-- ---------------------------------------------------------------------------
-- Keys that are written again
-- ---------------------------------------------------------------------------

theorem Table.insert_of_get? [DecidableEq κ] {t : Table κ α} (h : t.get? key = some value) :
    t.insert key value = t := by
  have hmem : key ∈ t.keys := by
    by_contra hnot
    simp [Table.get?_eq_none_iff.mpr hnot] at h
  have hsame : Table.replace t.entries key value = t.entries := by
    refine (List.map_congr_left ?_).trans (List.map_id _)
    intro entry hentry
    split
    · rename_i hkey
      have hlookup := (Table.mem_iff_lookup t.distinct).mp hentry
      rw [hkey] at hlookup
      have hvalue : value = entry.2 := Option.some.inj (h.symm.trans hlookup)
      simp [hvalue]
    · rfl
  obtain ⟨entries, distinct⟩ := t
  simp only [Table.insert, dif_pos hmem, hsame]

theorem entriesOf_congr {given given' : List (Key × Value)}
    (h : (given.map fun entry => (entry.1.identity, entry.1.inTable, entry.2)) =
      given'.map fun entry => (entry.1.identity, entry.1.inTable, entry.2)) :
    Value.entriesOf given = Value.entriesOf given' := by
  have hfilled (given : List (Key × Value)) : Value.entriesOf given =
      (((given.map fun entry => (entry.1.identity, entry.1.inTable, entry.2)).foldl
        (fun t entry => t.insert entry.1 entry.2) (Table.empty (α := Value × Value))).entries.map
        Prod.snd) := by
    rw [List.foldl_map]
    rfl
  rw [hfilled, hfilled, h]

theorem foundBy_append (look : String → Option Value) (keys keys' : List String) :
    foundBy look (keys ++ keys') = foundBy look keys ++ foundBy look keys' :=
  List.filterMap_append

def filled (look : String → Option Value) (keys : List String) :
    Table Key.Identity (Value × Value) :=
  ((foundBy look keys).map fun entry => (Key.text entry.1, entry.2)).foldl
    (fun t entry => t.insert entry.1.identity (entry.1.inTable, entry.2)) .empty

theorem get?_filled (look : String → Option Value) (keys : List String) (identity : Key.Identity) :
    (filled look keys).get? identity =
      if identity ∈ ((foundBy look keys).map fun entry => Key.Identity.text entry.1) then
        some (entryOf look identity) else none := by
  have hentry : ∀ entry ∈ (foundBy look keys).map fun entry => (Key.text entry.1, entry.2),
      entryOf look entry.1.identity = (entry.1.inTable, entry.2) := by
    intro entry hmem
    obtain ⟨found, hfound, rfl⟩ := List.mem_map.mp hmem
    simp only [Key.identity_text, entryOf, (mem_foundBy.mp hfound).2, Option.getD_some]
    rfl
  rw [filled, get?_foldl_insert _ hentry]
  simp only [List.map_map, Function.comp_def, Key.identity_text, Table.get?_empty]

theorem filled_append_none {look : String → Option Value} (h : look key = none)
    (keys : List String) : filled look (keys ++ [key]) = filled look keys := by
  simp [filled, foundBy, h]

theorem filled_append_some {look : String → Option Value} (h : look key = some value)
    (keys : List String) :
    filled look (keys ++ [key]) = (filled look keys).insert (.text key) (.text key, value) := by
  unfold filled
  rw [foundBy_append, foundBy_cons_some h, List.map_append, List.foldl_append]
  rfl

theorem eraseDups_append_singleton (keys : List String) (key : String) :
    (keys ++ [key]).eraseDups =
      if key ∈ keys then keys.eraseDups else keys.eraseDups ++ [key] := by
  rw [List.eraseDups_append]
  split
  · rename_i hmem
    simp [List.removeAll, hmem]
  · rename_i hnot
    simp [List.removeAll, hnot, List.eraseDups_cons]

theorem entries_filled (look : String → Option Value) (keys : List String) :
    (filled look keys).entries = (foundBy look keys.eraseDups).map fun entry =>
      (.text entry.1, .text entry.1, entry.2) := by
  induction keys using List.reverseRecOn with
  | nil => rfl
  | append_singleton keys key ih =>
    rw [eraseDups_append_singleton]
    cases hlook : look key with
    | none =>
      rw [filled_append_none hlook, ih]
      split
      · rfl
      · simp [foundBy, hlook]
    | some value =>
      rw [filled_append_some hlook]
      split
      · rename_i hmem
        have hfound : (key, value) ∈ foundBy look keys := mem_foundBy.mpr ⟨hmem, hlook⟩
        have hthere : (filled look keys).get? (.text key) = some (.text key, value) := by
          rw [get?_filled, if_pos (List.mem_map.mpr ⟨_, hfound, rfl⟩)]
          simp [entryOf, hlook]
        rw [Table.insert_of_get? hthere, ih]
      · rename_i hnot
        have hnew : Key.Identity.text key ∉ (filled look keys).keys := by
          intro hmem
          rw [Table.keys, ih] at hmem
          simp [mem_foundBy, hnot] at hmem
        rw [Table.entries_insert_of_not_mem hnew, ih, foundBy_append, foundBy_cons_some hlook,
          List.map_append]
        rfl

theorem SameEntry.map {given : List (Key × Value)} {found : List (String × Value)}
    (h : List.Forall₂ SameEntry given found) :
    (given.map fun entry => (entry.1.identity, entry.1.inTable, entry.2)) =
      found.map fun entry => (.text entry.1, .text entry.1, entry.2) := by
  induction h with
  | nil => rfl
  | cons hentry _ ih =>
    rw [List.map_cons, List.map_cons, ih, identity_of_value hentry.1, inTable_of_value hentry.1,
      hentry.2]

theorem entriesOf_sameEntry {look : String → Option Value} {keys : List String}
    {given : List (Key × Value)} (h : List.Forall₂ SameEntry given (foundBy look keys)) :
    Value.entriesOf given =
      (foundBy look keys.eraseDups).map fun entry => (.text entry.1, entry.2) := by
  have hfilled : Value.entriesOf given = (filled look keys).entries.map Prod.snd := by
    refine entriesOf_congr ((SameEntry.map h).trans ?_)
    rw [List.map_map]
    rfl
  rw [hfilled, entries_filled, List.map_map]
  rfl

-- ---------------------------------------------------------------------------
-- What reads find
-- ---------------------------------------------------------------------------

namespace RedisStore

def value? (answer : Except Fault Value) : Option Value := answer.toOption.filter (!·.isNull)

theorem settled_eq (answer : Except Fault Value) : settled answer = (value? answer).getD .null := by
  cases answer with
  | error fault => rfl
  | ok value =>
    cases value with
    | _ => rfl

theorem isNull_of_value? {answer : Except Fault Value} (h : value? answer = some value) :
    value.isNull = false := by
  have hkept := (Option.filter_eq_some_iff.mp h).2
  simpa using hkept

theorem present_settled (assigned : String → Except Fault Value) (keys : List String) :
    present ((Key.ofEach (keys.map .text)).zip (keys.map fun key => settled (assigned key))) =
      (foundBy (fun key => value? (assigned key)) keys.eraseDups).map fun entry =>
        (.text entry.1, entry.2) := by
  have hsame := sameEntry_zip (keys.map fun key => (key, settled (assigned key)))
  simp only [List.map_map, Function.comp_def] at hsame
  have hfilter : ((keys.map fun key => (key, (value? (assigned key)).getD .null)).filter
      fun entry => !entry.2.isNull) = foundBy (fun key => value? (assigned key)) keys :=
    filter_getD (fun _ _ h => isNull_of_value? h) keys
  simp only [← settled_eq] at hfilter
  refine entriesOf_sameEntry ?_
  rw [← hfilter]
  refine List.rel_filter ?_ hsame
  intro given entry hentry
  simp only [hentry.2]

variable {κ κ' : Type}

/-- The client answers the reads of keys, one after another, as each key is assigned. -/
def Client.Reads (client : Client κ) (scope : String) (now : Binary64) (keys : List String)
    (assigned : String → Except Fault Value) (s : κ) : Prop :=
  (exchange client.send now (keys.map fun key => .get (scope ++ key)) s).1 = keys.map assigned

/-- How a read of many keys ends, one by one. -/
structure Gathers (assigned : String → Except Fault Value) (keys : List String)
    (o : Outcome LogLine Fault σ Value) : Prop where
  fails_iff : o.reply.toBool = false ↔ ∀ key ∈ keys, (assigned key).toBool = false
  isTransient : ∀ fault, o.reply = .error fault → fault.isTransient = true
  found : ∀ reply, o.reply = .ok reply → reply = .table
    ((foundBy (fun key => value? (assigned key)) keys.eraseDups).map fun entry =>
      (.text entry.1, entry.2))
  warns_iff : (∃ line ∈ o.journal, line.level = .warn) ↔
    (∃ key ∈ keys, (assigned key).toBool = false) ∧ ∃ key ∈ keys, (assigned key).toBool = true

section
variable (assigned : String → Except Fault Value) (keys : List String)

theorem countP_failures_eq_length :
    (keys.map assigned).countP (fun answer => !answer.toBool) = keys.length ↔
      ∀ key ∈ keys, (assigned key).toBool = false := by
  have hlength : keys.length = (keys.map assigned).length := (List.length_map assigned).symm
  rw [hlength, List.countP_eq_length]
  simp

theorem countP_failures_eq_zero :
    (keys.map assigned).countP (fun answer => !answer.toBool) = 0 ↔
      ∀ key ∈ keys, (assigned key).toBool = true := by
  simp [List.countP_eq_zero]

theorem gathered_map : gathered keys (keys.map assigned) =
    if ∀ key ∈ keys, (assigned key).toBool = false then
      .error (.transient s!"GET failed on every cluster node for {keys.length} keys" none)
    else .ok (.table ((foundBy (fun key => value? (assigned key)) keys.eraseDups).map fun entry =>
      (.text entry.1, entry.2))) := by
  unfold gathered
  rw [← present_settled, List.map_map]
  exact if_congr (countP_failures_eq_length assigned keys) rfl rfl

theorem warnings_map : (∃ line ∈ warnings keys (keys.map assigned), line.level = .warn) ↔
    (∃ key ∈ keys, (assigned key).toBool = false) ∧
      ∃ key ∈ keys, (assigned key).toBool = true := by
  unfold warnings
  simp only [countP_failures_eq_length, countP_failures_eq_zero]
  split
  · rename_i hone
    refine iff_of_false (by simp) ?_
    rintro ⟨⟨failed, hfailed, hfails⟩, answered, hanswered, hanswers⟩
    rcases hone with hnone | hall
    · simp [hnone failed hfailed] at hfails
    · simp [hall answered hanswered] at hanswers
  · rename_i hsome
    push Not at hsome
    obtain ⟨⟨failed, hfailed, hfails⟩, answered, hanswered, hanswers⟩ := hsome
    refine iff_of_true (by simp) ⟨⟨failed, hfailed, ?_⟩, answered, hanswered, ?_⟩
    · simpa using hfails
    · simpa using hanswers

end

theorem gathers_of_run {o : Outcome LogLine Fault σ Value}
    (hreply : o.reply = gathered keys (keys.map assigned))
    (hjournal : o.journal = warnings keys (keys.map assigned)) : Gathers assigned keys o := by
  rw [gathered_map] at hreply
  refine ⟨?_, ?_, ?_, ?_⟩
  · rw [hreply]
    split
    · rename_i hall
      exact iff_of_true rfl hall
    · rename_i hsome
      exact iff_of_false nofun hsome
  · intro fault hfault
    rw [hreply] at hfault
    split at hfault
    · cases hfault
      rfl
    · cases hfault
  · intro reply hok
    rw [hreply] at hok
    split at hok
    · cases hok
    · cases hok
      rfl
  · rw [hjournal]
    exact warnings_map assigned keys

theorem reply_getMulti_single {single : Client κ'} (scope : String) (now : Binary64)
    {keys : List String} {values : String → Value} {t : State κ'} (hinit : t.initialized = true)
    (hsingle : single.isCluster = false) (hne : keys ≠ [])
    (hanswer : (single.send now (manyFor scope keys) t.client).1 = .ok (.list (keys.map values))) :
    (store single ⟨.text scope⟩ now (.getMulti (.list (keys.map .text))) t).reply =
      .ok (.table (present ((Key.ofEach (keys.map .text)).zip (keys.map values)))) := by
  rw [run_getMulti_single single scope now hinit hsingle hne, hanswer]
  show (do return Value.table (present (← withKeys _ (.list (keys.map values)))) :
    Except Fault Value) = _
  rw [RedisServer.withKeys_map]
  rfl

/-- A cluster that is asked for many keys finds all those that have a value and whose read did not
fail, each with its own value and in the order in which they were asked for first, however often.
It fails if and only if all reads did, with a transient fault, and warns if and only if some did but
not all. Where none failed, the reply is the one of a single node that is sent the same values. -/
theorem getMulti_gathers {client : Client κ} (scope : String) (now : Binary64) {keys : List String}
    {assigned : String → Except Fault Value} {s : State κ} (hinit : s.initialized = true)
    (hcluster : client.isCluster = true) (hne : keys ≠ [])
    (hreads : client.Reads scope now keys assigned s.client) :
    let o := store client ⟨.text scope⟩ now (.getMulti (.list (keys.map .text))) s
    Gathers assigned keys o ∧
      ∀ {κ' : Type} (single : Client κ') (scope' : String) (now' : Binary64) (t : State κ')
        (values : String → Value), single.isCluster = false → t.initialized = true →
        (∀ key ∈ keys, assigned key = .ok (values key)) →
        (single.send now' (manyFor scope' keys) t.client).1 = .ok (.list (keys.map values)) →
        (store single ⟨.text scope'⟩ now' (.getMulti (.list (keys.map .text))) t).reply =
          o.reply := by
  intro o
  have hrun : o = _ := run_getMulti_warning client scope now hinit hcluster hne
  rw [hreads] at hrun
  have hreply : o.reply = gathered keys (keys.map assigned) := by rw [hrun]
  have hjournal : o.journal = warnings keys (keys.map assigned) := by rw [hrun]
  refine ⟨gathers_of_run hreply hjournal, ?_⟩
  intro κ' single scope' now' t values hsingle hinit' hvalues hanswer
  have hsome : ¬∀ key ∈ keys, (assigned key).toBool = false := by
    intro hall
    obtain ⟨key, hmem⟩ := List.exists_mem_of_ne_nil keys hne
    simpa [hvalues key hmem, Except.toBool] using hall key hmem
  have hsettled : keys.map values = keys.map fun key => settled (assigned key) := by
    refine List.map_congr_left fun key hmem => ?_
    rw [hvalues key hmem]
    rfl
  rw [reply_getMulti_single scope' now' hinit' hsingle hne hanswer, hsettled, present_settled, hreply,
    gathered_map, if_neg hsome]

def shard (key : String) : Except Fault Value :=
  if key = "c" then .error (.plain "CLUSTERDOWN") else if key = "a" then .ok (.text "2") else .ok .null

def shards (isCluster : Bool) : Client Unit where
  isCluster := isCluster
  status _ := "ready"
  send _ command s :=
    match command with
    | .get key => (shard key, s)
    | .mget (.list keys) => (.ok (.list (keys.map fun key => settled (shard (key.text?.getD "")))), s)
    | _ => (.ok .null, s)

theorem getMulti_gathers_shards :
    let s : State Unit := { initialized := true, client := () }
    let read (isCluster : Bool) (keys : List String) :=
      store (shards isCluster) ⟨.text ""⟩ 0 (.getMulti (.list (keys.map .text))) s
    (∃ line ∈ (read true ["b", "a", "c", "a"]).journal, line.level = .warn) ∧
      (read true ["b", "a", "c", "a"]).reply = .ok (.table [(.text "a", .text "2")]) ∧
      (read false ["a", "b", "a"]).reply = (read true ["a", "b", "a"]).reply := by
  intro s read
  have hstarted : s.initialized = true := rfl
  have hcluster : (shards true).isCluster = true := rfl
  have hreads (keys : List String) (hkeys : keys = ["b", "a", "c", "a"] ∨ keys = ["a", "b", "a"]) :
      (shards true).Reads "" 0 keys shard s.client := by
    rcases hkeys with rfl | rfl <;> rfl
  obtain ⟨hlame, -⟩ := getMulti_gathers "" 0 hstarted hcluster (by simp) (hreads _ (.inl rfl))
  obtain ⟨-, hsame⟩ := getMulti_gathers "" 0 hstarted hcluster (by simp) (hreads _ (.inr rfl))
  refine ⟨hlame.warns_iff.mpr ⟨⟨"c", by simp, rfl⟩, "a", by simp, rfl⟩, ?_, ?_⟩
  · cases hreply : (read true ["b", "a", "c", "a"]).reply with
    | ok reply =>
      rw [hlame.found reply hreply]
      rfl
    | error fault => cases hlame.fails_iff.mp (congrArg Except.toBool hreply) "a" (by simp)
  · refine hsame (shards false) "" 0 s (fun key => settled (shard key)) rfl rfl ?_ rfl
    intro key hmem
    simp only [List.mem_cons, List.not_mem_nil, or_false] at hmem
    rcases hmem with rfl | rfl | rfl <;> rfl

end RedisStore

end SlidingTally
