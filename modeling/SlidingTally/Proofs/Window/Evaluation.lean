import SlidingTally.Proofs.Number.Digits
import SlidingTally.Proofs.Service.Rules
import SlidingTally.Proofs.Window.Enumeration

/-!
# The counter over a store that answers

What the counter makes of the answers of any store as long as none is a fault: a write ends with
the count, on one of three paths, and a read with the total of what the store hands back. Main
statements: `evaluates_readWindow_whole`, `evaluates_increment` and `evaluates_query`.
-/

namespace SlidingTally

open SlidingTally.Action (Evaluates)
open Binary64 (ofNat is_ofNat)

namespace Counter

-- ---------------------------------------------------------------------------
-- Writing a bucket
-- ---------------------------------------------------------------------------

section
variable {σ : Type} {w : Wiring σ} {s s' s'' : σ} {bucket : String}

theorem evaluates_incrementBucket_counted (ttl : Binary64) {x : Binary64}
    (h : Evaluates (w.store w.now (.increment (.text bucket))) s (.number x) s')
    (hx : (Value.number x).isNumber 1 = false) :
    Evaluates (incrementBucket w bucket ttl) s (.number x) s' := by
  refine (evaluates_ask h).bind ?_
  dsimp only
  rw [if_neg (by rw [hx]; exact Bool.false_ne_true)]
  exact Evaluates.pure _ _

theorem evaluates_incrementBucket_created {ttl : Binary64}
    (h : Evaluates (w.store w.now (.increment (.text bucket))) s (.number 1) s')
    (httl : Evaluates (assignTtl w bucket ttl) s' () s'') :
    Evaluates (incrementBucket w bucket ttl) s (.number 1) s'' := by
  have hone : (Value.number 1).isNumber 1 = true := (isNumber_one (n := 1) (by decide)).mpr rfl
  refine (evaluates_ask h).bind ?_
  dsimp only
  rw [if_pos hone]
  exact httl.bind (Evaluates.pure _ _)

theorem evaluates_incrementBucket_added {ttl : Binary64}
    (h : Evaluates (w.store w.now (.increment (.text bucket))) s .null s')
    (hadd : Evaluates (w.store w.now (.addIfAbsent (.text bucket) (.number 1) (.number ttl))) s'
      (.bool true) s'') : Evaluates (incrementBucket w bucket ttl) s (.number 1) s'' := by
  refine (evaluates_ask h).bind (evaluates_rescue ?_ _)
  exact (evaluates_demand hadd).bind (Evaluates.pure _ _)

theorem evaluates_assignTtl_touched {ttl : Binary64}
    (h : Evaluates (w.store w.now (.touch (.text bucket) (.number ttl))) s
      TouchResult.touched.value s') : Evaluates (assignTtl w bucket ttl) s () s' := by
  refine evaluates_rescue ((evaluates_demand h).bind ?_) _
  rw [TouchResult.ofValue?_value]
  exact Evaluates.pure _ _

end

-- ---------------------------------------------------------------------------
-- Reading a window
-- ---------------------------------------------------------------------------

def Denotes (entry : Value × Value) (n : Nat) : Prop :=
  Codec.integer entry.1 entry.2 = .ok (ofNat n)

theorem denotes_number {n : Nat} (h : n ≤ 2 ^ 53) (key : Value) :
    Denotes (key, .number (ofNat n)) n :=
  if_pos (is_ofNat h).isInteger

def totalOf (ns : List Nat) : Binary64 := (ns.map ofNat).foldl (· + ·) 0

/-- Up to 2^53 neither the order of the counts matters nor whether the zeros are among them. -/
theorem totalOf_of_perm {ns counts : List Nat} (hperm : ns.Perm (counts.filter (0 < ·)))
    (h : counts.sum ≤ 2 ^ 53) : totalOf ns = ofNat counts.sum := by
  have hsum : ns.sum = counts.sum := by
    rw [hperm.sum_nat]
    clear hperm h
    induction counts with
    | nil => rfl
    | cons n rest ih =>
      by_cases hpos : 0 < n
      · simp [hpos, ih]
      · simp [show n = 0 by omega, ih]
  have htotal := Binary64.foldl_ofNat ns 0 (by omega)
  rwa [Nat.zero_add, hsum] at htotal

section
variable {σ : Type} {w : Wiring σ} {s s' : σ} {entries : List (Value × Value)} {ns : List Nat}

/-- An entry that a sum takes for a number, whatever it logs about it. -/
def CountsAs (σ : Type) (entry : Value × Value) (x : Binary64) : Prop :=
  ∀ s : σ, Evaluates (decodeBucket entry.1 entry.2 : Service σ Binary64) s x s

theorem Denotes.countsAs (h : Denotes entry n) : CountsAs σ entry (ofNat n) := by
  intro s
  unfold decodeBucket
  rw [show Codec.integer entry.1 entry.2 = .ok (ofNat n) from h]
  exact Evaluates.pure _ _

theorem evaluates_sumBuckets {xs : List Binary64} (total : Binary64)
    (h : List.Forall₂ (CountsAs σ) entries xs) (s : σ) :
    Evaluates (sumBuckets total (entries.map fun entry => .list [entry.1, entry.2]) : Service σ _) s
      (xs.foldl (· + ·) total) s := by
  induction h generalizing total with
  | nil => exact Evaluates.pure _ _
  | @cons entry x _ _ hentry _ ih =>
    refine (evaluates_orReject (Value.pair_list _ _)).bind ((hentry s).bind ?_)
    exact ih (total + x)

theorem evaluates_readBuckets {xs : List Binary64} (name : Value) {buckets : List String}
    (hread : Evaluates (w.store w.now (.getMulti (.list (buckets.map .text)))) s (.table entries) s')
    (h : List.Forall₂ (CountsAs σ) entries xs)
    (hrefusal : w.refusal (.reads buckets.length) = none) :
    Evaluates (readBuckets w name buckets) s ⟨xs.foldl (· + ·) 0, true⟩ s' := by
  refine (evaluates_observe hrefusal s).bind (evaluates_rescue ((evaluates_demand hread).bind ?_) _)
  refine (evaluates_orReject (Value.iterate_table _ _)).bind ?_
  exact (evaluates_sumBuckets 0 h s').bind (Evaluates.pure _ _)

theorem readWindow_of_ids {found : List Binary64}
    (h : Bucket.ids? (Bucket.range (seconds w.now) window) = some found) (name : Value) :
    readWindow w name window =
      orReject (bucketKeys name window found) >>= readBuckets w name := by
  unfold readWindow
  rw [h]

theorem evaluates_readWindow_whole {store : CounterStore σ} {T window : Nat} (hT : T ≤ 10 ^ 14)
    (hw : window ≤ 10 ^ 9) {name : String}
    (hread : Evaluates (store (ofNat T) (.getMulti (.list
      (((Bucket.covered window T).map (Bucket.wholeKey name window)).map .text)))) s
      (.table entries) s')
    (h : List.Forall₂ Denotes entries ns) :
    Evaluates (readWindow { store := store, now := ofNat T } (.text name) (ofNat window)) s
      ⟨totalOf ns, true⟩ s' := by
  obtain ⟨ids, hids, hkeys⟩ := Bucket.keys_covered hT hw name
  have hbuckets : bucketKeys (.text name) (ofNat window) ids =
      .ok ((Bucket.covered window T).map (Bucket.wholeKey name window)) := by
    rw [bucketKeys_text, hkeys]
  have hcounts : List.Forall₂ (CountsAs σ) entries (ns.map ofNat) :=
    List.forall₂_map_right_iff.mpr (h.imp fun _ _ hentry => hentry.countsAs)
  rw [readWindow_of_ids (w := { store := store, now := ofNat T }) hids]
  exact (evaluates_orReject hbuckets).bind (evaluates_readBuckets (.text name) hread hcounts rfl)

end

-- ---------------------------------------------------------------------------
-- The two operations
-- ---------------------------------------------------------------------------

section
variable {w : Wiring σ} {s s' s'' : σ} {name window : Value} {x total : Binary64}

theorem evaluates_servable (hinit : Evaluates (w.store w.now .isInitialized) s (.bool true) s)
    (hwindow : validWindow? window = some x) (operation : String) :
    Evaluates (servable w operation name window) s (some x) s := by
  refine (evaluates_demand hinit).bind ?_
  rw [if_pos (show (Value.bool true).truthy = true from rfl), hwindow]
  exact Evaluates.pure _ _

theorem evaluates_increment (hinit : Evaluates (w.store w.now .isInitialized) s (.bool true) s)
    (hwindow : validWindow? window = some x) (hname : name.asText = .ok text)
    (hwrite : Evaluates (incrementBucket w (currentBucket w.now text x) (Bucket.ttl x maxTtl)) s
      (.number written) s')
    (hread : Evaluates (readWindow w name x) s' ⟨total, true⟩ s'')
    (hrefusal : w.refusal (.increment .ok) = none) :
    Evaluates (increment w name window maxTtl) s (.number total) s'' := by
  refine (evaluates_servable hinit hwindow _).bind ?_
  refine (evaluates_orReject hname).bind (hwrite.bind ?_)
  exact hread.bind ((evaluates_observe hrefusal _).bind (Evaluates.pure _ _))

theorem state_increment (hinit : Evaluates (w.store w.now .isInitialized) s (.bool true) s)
    (hwindow : validWindow? window = some x) (hname : name.asText = .ok text)
    (hwrite : Evaluates (incrementBucket w (currentBucket w.now text x) (Bucket.ttl x maxTtl)) s
      (.number written) s') :
    (increment w name window maxTtl s).state = (readWindow w name x s').state := by
  have hobserve (metric : Metric) (s : σ) : (observe w metric s).state = s := by
    unfold observe
    cases w.refusal metric <;> rfl
  unfold increment
  rw [(evaluates_servable hinit hwindow _).state_bind]
  dsimp only
  rw [(evaluates_orReject hname).state_bind, hwrite.state_bind]
  dsimp only
  rw [Action.run_bind]
  cases (readWindow w name x s').reply with
  | error halt => rfl
  | ok read =>
    dsimp only
    rw [Action.run_bind]
    cases hreply : (observe w (.increment .ok) (readWindow w name x s').state).reply with
    | error halt => exact hobserve _ _
    | ok _ => exact hobserve _ _

theorem evaluates_query (hinit : Evaluates (w.store w.now .isInitialized) s (.bool true) s)
    (hwindow : validWindow? window = some x)
    (hread : Evaluates (readWindow w name x) s ⟨total, true⟩ s')
    (hrefusal : w.refusal (.query .ok) = none) :
    Evaluates (query w name window) s (.number total) s' := by
  refine (evaluates_servable hinit hwindow _).bind ?_
  exact hread.bind ((evaluates_observe hrefusal _).bind (Evaluates.pure _ _))

end

end Counter

end SlidingTally
