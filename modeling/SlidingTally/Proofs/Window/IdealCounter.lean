import Mathlib.Algebra.Order.BigOperators.Group.List
import SlidingTally.Proofs.Service.Request
import SlidingTally.Proofs.Store.Entries
import SlidingTally.Proofs.Store.ExpiringCalls
import SlidingTally.Proofs.Window.Evaluation

/-!
# The counter over an expiring map

What the counter does when its store is an expiring map and nothing fails: the first increment
of a bucket leaves it with its time to live in every mode of the store, a later one adds to it,
and a read gives the sum of the counts. Main statements: `evaluates_incrementBucket_absent`,
`evaluates_incrementBucket_present` and `evaluates_readWindow`.
-/

namespace SlidingTally

open SlidingTally.Action (Alike Evaluates)
open Binary64 (ofNat is_ofNat ofNat_add Is)

-- ---------------------------------------------------------------------------
-- Writing a bucket
-- ---------------------------------------------------------------------------

namespace Counter

section
variable {m : ExpiringMap.State} {options : MemoryStore.Options} {now ttl : Binary64}
  {bucket : String}

theorem evaluates_assignTtl (h : m.initialized = true) :
    Evaluates (assignTtl { store := ExpiringMap.store options, now := now } bucket ttl)
      (m.put (.text bucket) ⟨.number 1, none⟩) ()
      (m.put (.text bucket) ⟨.number 1, ExpiringMap.expiry now ttl⟩) := by
  have hinit : (m.put (.text bucket) ⟨.number 1, none⟩).initialized = true := h
  cases htouch : options.supportsTouch.truthy with
  | true =>
    have hfind : (m.put (.text bucket) ⟨.number 1, none⟩).find? now (.text bucket) =
        some ⟨.number 1, none⟩ := ExpiringMap.find?_put_self m (.text bucket) (.number 1)
    have hrun := ExpiringMap.evaluates_touch hinit hfind htouch ttl
    rw [ExpiringMap.put_put] at hrun
    exact evaluates_assignTtl_touched hrun
  | false =>
    have hset := ExpiringMap.evaluates_set options now (.text bucket) (.number 1) ttl hinit
    rw [ExpiringMap.put_put] at hset
    refine evaluates_rescue ?_ _
    refine (evaluates_demand (ExpiringMap.evaluates_touch_unsupported hinit htouch)).bind ?_
    rw [TouchResult.ofValue?_value]
    exact (evaluates_demand hset).bind (Evaluates.pure _ _)

theorem evaluates_incrementBucket_absent (options : MemoryStore.Options) (ttl : Binary64)
    (h : m.initialized = true)
    (hfind : m.find? now (.text bucket) = none) :
    Evaluates (incrementBucket { store := ExpiringMap.store options, now := now } bucket ttl) m
      (.number (ofNat 1))
      (m.put (.text bucket) ⟨.number (ofNat 1), ExpiringMap.expiry now ttl⟩) := by
  cases hcreates : options.createsOnIncrement.truthy with
  | true =>
    exact evaluates_incrementBucket_created (ExpiringMap.evaluates_increment_none h hfind hcreates)
      (evaluates_assignTtl h)
  | false =>
    exact evaluates_incrementBucket_added (ExpiringMap.evaluates_increment_null h hfind hcreates)
      (ExpiringMap.evaluates_addIfAbsent options (.number 1) ttl h hfind)

/-- A bucket with a count keeps its expiry, and its count goes no further than doubles do. -/
theorem evaluates_incrementBucket_again (options : MemoryStore.Options) (ttl : Binary64)
    (h : m.initialized = true) {n : Nat} (hpos : 0 < n)
    (hfind : m.find? now (.text bucket) = some ⟨.number (ofNat (min n (2 ^ 53))), expiresAt⟩) :
    Evaluates (incrementBucket { store := ExpiringMap.store options, now := now } bucket ttl) m
      (.number (ofNat (min (n + 1) (2 ^ 53))))
      (m.put (.text bucket) ⟨.number (ofNat (min (n + 1) (2 ^ 53))), expiresAt⟩) := by
  have hrun := ExpiringMap.evaluates_increment_some options h hfind
    (is_ofNat (Nat.min_le_right n (2 ^ 53))).isInteger
  rw [Binary64.ofNat_min_add_one] at hrun
  exact evaluates_incrementBucket_counted ttl hrun (isNumber_ofNat (k := 1) (by decide) (by omega))

theorem evaluates_incrementBucket_present (h : m.initialized = true) {n : Nat} (hpos : 0 < n)
    (hn : n + 1 ≤ 2 ^ 53) (hfind : m.find? now (.text bucket) = some ⟨.number (ofNat n), expiresAt⟩) :
    Evaluates (incrementBucket { store := ExpiringMap.store options, now := now } bucket ttl) m
      (.number (ofNat (n + 1))) (m.put (.text bucket) ⟨.number (ofNat (n + 1)), expiresAt⟩) := by
  rw [← Nat.min_eq_left (Nat.le_of_succ_le hn)] at hfind
  rw [← Nat.min_eq_left hn]
  exact evaluates_incrementBucket_again options ttl h hpos hfind

end

-- ---------------------------------------------------------------------------
-- Reading a window
-- ---------------------------------------------------------------------------

def Counts (n : Nat) (held : Option ExpiringMap.Held) : Prop :=
  n = 0 ∧ held = none ∨ 0 < n ∧ ∃ expiresAt, held = some ⟨.number (ofNat n), expiresAt⟩

section
variable {m : ExpiringMap.State} {now : Binary64} {key : Int → String} {tally : Int → Nat}
  {ids : List Int}

theorem found?_counts (h : ∀ id ∈ ids, Counts (tally id) (m.find? now (.text (key id)))) :
    ((ids.map key).map Key.text).filterMap (ExpiringMap.found? m now) =
      (ids.filter (0 < tally ·)).map fun id =>
        (Key.text (key id), .number (ofNat (tally id))) := by
  induction ids with
  | nil => rfl
  | cons id rest ih =>
    have hrest := ih fun other hmem => h other (List.mem_cons_of_mem _ hmem)
    rw [List.map_cons, List.map_cons, List.filterMap_cons, hrest]
    rcases h id List.mem_cons_self with ⟨hzero, hfind⟩ | ⟨hpos, expiresAt, hfind⟩
    · simp [ExpiringMap.found?, hfind, hzero]
    · simp [ExpiringMap.found?, hfind, hpos]

theorem evaluates_getMulti_counts (options : MemoryStore.Options) (hinit : m.initialized = true)
    (hnodup : ids.Nodup) (hinj : ∀ a ∈ ids, ∀ b ∈ ids, key a = key b → a = b)
    (h : ∀ id ∈ ids, Counts (tally id) (m.find? now (.text (key id)))) :
    Evaluates (ExpiringMap.store options now (.getMulti (.list ((ids.map key).map .text)))) m
      (.table ((ids.filter (0 < tally ·)).map fun id =>
        (.text (key id), .number (ofNat (tally id))))) m := by
  have hdistinct : (((ids.filter (0 < tally ·)).map fun id =>
      ((Key.text (key id), Value.number (ofNat (tally id))) : Key × Value)).map fun entry =>
        entry.1.identity).Nodup := by
    rw [List.map_map]
    refine (hnodup.filter _).map_on fun a ha b hb hab => ?_
    exact hinj a (List.mem_filter.mp ha).1 b (List.mem_filter.mp hb).1
      (Key.identity_text_inj.mp hab)
  have hrun := ExpiringMap.evaluates_getMulti options now hinit (ids.map key)
  rw [found?_counts h, entriesOf_of_nodup hdistinct, List.map_map (l := ids.filter _)] at hrun
  exact hrun

theorem evaluates_readWindow {options : MemoryStore.Options} (hinit : m.initialized = true)
    {t window : Nat} (ht : t ≤ 10 ^ 14) (hw : window ≤ 10 ^ 9) (name : String)
    (hfew : ((Bucket.covered window t).map tally).sum ≤ 2 ^ 53)
    (h : ∀ id ∈ Bucket.covered window t,
      Counts (tally id) (m.find? (ofNat t) (.text (Bucket.wholeKey name window id)))) :
    Evaluates (readWindow { store := ExpiringMap.store options, now := ofNat t } (.text name)
        (ofNat window)) m
      ⟨ofNat ((Bucket.covered window t).map tally).sum, true⟩ m := by
  have hread := evaluates_getMulti_counts options hinit Bucket.nodup_covered
    (fun a _ b _ hab => (Bucket.wholeKey_inj hab).2.2) h
  have hdenotes : List.Forall₂ Denotes
      (((Bucket.covered window t).filter (0 < tally ·)).map fun id =>
        (.text (Bucket.wholeKey name window id), .number (ofNat (tally id))))
      (((Bucket.covered window t).filter (0 < tally ·)).map tally) := by
    rw [List.forall₂_map_left_iff, List.forall₂_map_right_iff, List.forall₂_same]
    intro id hmem
    have hmem' := List.mem_map_of_mem (f := tally) (List.mem_filter.mp hmem).1
    exact denotes_number (Nat.le_trans (List.le_sum_of_mem hmem') hfew) _
  have htotal := totalOf_of_perm (.of_eq (List.filter_map ..).symm) hfew
  rw [← htotal]
  exact evaluates_readWindow_whole ht hw hread hdenotes

end

end Counter

end SlidingTally
