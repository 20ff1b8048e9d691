import SlidingTally.Proofs.Store.Entries
import SlidingTally.Proofs.Window.ExactCount

/-!
# Stores that count

`CountingStore` is a store with what it keeps of each bucket: a count, until the deadline of the
bucket. It says what one increment and one read do. From this follows what a whole run of
increments and queries replies with, for every such store alike. Main statements:
`holds_stateAfter` and `reply_eq`.
-/

namespace SlidingTally

open SlidingTally.Action (Evaluates)
open Binary64 (ofNat is_ofNat)
open Bucket (wholeId wholeKey covered)
open Counter (Denotes totalOf)
open Request (serveWhole)

-- ---------------------------------------------------------------------------
-- Calls of the counter
-- ---------------------------------------------------------------------------

/-- Increments and queries in the order of their times, none too late, for windows of at most a
billion seconds. -/
structure Paced (calls : List (Nat × Request Nat)) : Prop where
  sorted : (calls.map Prod.fst).Pairwise (· ≤ ·)
  early : ∀ call ∈ calls, call.1 ≤ 10 ^ 14
  windows : ∀ call ∈ calls, ∃ name window, call.2.counter? = some (name, window) ∧
    1 ≤ window ∧ window ≤ 10 ^ 9

section
variable {before : List (Nat × Request Nat)} {last : Nat × Request Nat}

theorem Paced.init {after : List (Nat × Request Nat)} (h : Paced (before ++ after)) :
    Paced before := by
  have hsorted := h.sorted
  rw [List.map_append, List.pairwise_append] at hsorted
  exact ⟨hsorted.1, fun call hmem => h.early call (List.mem_append_left _ hmem),
    fun call hmem => h.windows call (List.mem_append_left _ hmem)⟩

theorem Paced.le_last (h : Paced (before ++ [last])) : ∀ call ∈ before, call.1 ≤ last.1 := by
  intro call hmem
  have hsorted := h.sorted
  rw [List.map_append, List.pairwise_append] at hsorted
  exact hsorted.2.2 _ (List.mem_map_of_mem hmem) _ (List.mem_map_of_mem List.mem_cons_self)

theorem Paced.early_last (h : Paced (before ++ [last])) : last.1 ≤ 10 ^ 14 :=
  h.early last (List.mem_append_right _ List.mem_cons_self)

theorem Paced.window_last (h : Paced (before ++ [last]))
    (hcounter : last.2.counter? = some (name, window)) : 1 ≤ window ∧ window ≤ 10 ^ 9 := by
  obtain ⟨name', window', hcounter', hwindow⟩ :=
    h.windows last (List.mem_append_right _ List.mem_cons_self)
  cases hcounter.symm.trans hcounter'
  exact hwindow

theorem Paced.append_call {T : Nat} {request : Request Nat} (h : Paced before)
    (hle : ∀ call ∈ before, call.1 ≤ T) (hT : T ≤ 10 ^ 14)
    (hcounter : request.counter? = some (name, window)) (hpos : 1 ≤ window)
    (hw : window ≤ 10 ^ 9) : Paced (before ++ [(T, request)]) := by
  refine ⟨?_, List.forall_mem_append.mpr ⟨h.early, ?_⟩, List.forall_mem_append.mpr ⟨h.windows, ?_⟩⟩
  · rw [List.map_append, List.pairwise_append]
    refine ⟨h.sorted, List.pairwise_singleton _ _, fun t hmem t' hmem' => ?_⟩
    obtain ⟨call, hcall, rfl⟩ := List.mem_map.mp hmem
    obtain rfl := List.mem_singleton.mp hmem'
    exact hle call hcall
  · exact List.forall_mem_singleton.mpr hT
  · exact List.forall_mem_singleton.mpr ⟨name, window, hcounter, hpos, hw⟩

theorem Paced.regular {calls : List (Nat × Request Nat)} (h : Paced calls)
    (hfew : (calls.countP fun call => call.2.isIncrement) < 2 ^ 53) : Regular calls := by
  refine ⟨hfew, h.sorted, h.early, fun call hmem name window hcounter => ?_, fun call hmem => ?_⟩
  · obtain ⟨name', window', hcounter', hwindow⟩ := h.windows call hmem
    cases hcounter.symm.trans hcounter'
    exact hwindow
  · obtain ⟨name, window, hcounter, -⟩ := h.windows call hmem
    obtain ⟨t, request⟩ := call
    cases request with
    | set key value ttl => cases hcounter
    | _ => trivial

end

def keyCounts (calls : List (Nat × Request Nat)) (name : String) (window T : Nat) :
    List (String × Nat) :=
  (covered window T).map fun bucket => (wholeKey name window bucket, tally calls name window bucket)

theorem keys_keyCounts (calls : List (Nat × Request Nat)) (name : String) (window T : Nat) :
    (keyCounts calls name window T).map Prod.fst =
      (covered window T).map (wholeKey name window) := by
  simp [keyCounts]

theorem nodup_keyCounts (calls : List (Nat × Request Nat)) (name : String) (window T : Nat) :
    ((keyCounts calls name window T).map Prod.fst).Nodup := by
  rw [keys_keyCounts]
  exact Bucket.nodup_covered.map_on fun _ _ _ _ heq => (Bucket.wholeKey_inj heq).2.2

def coveredCounts (calls : List (Nat × Request Nat)) (name : String) (window T : Nat) : List Nat :=
  ((keyCounts calls name window T).map Prod.snd).filter (0 < ·)

theorem totalOf_coveredCounts {calls : List (Nat × Request Nat)} {ns : List Nat}
    (hperm : ns.Perm (coveredCounts calls name window T))
    (hfew : (calls.countP fun call => call.2.isIncrement) ≤ 2 ^ 53) :
    totalOf ns = ofNat (occurrences calls name window T) := by
  have hsum : ((keyCounts calls name window T).map Prod.snd).sum =
      occurrences calls name window T := by
    rw [← sum_tally, keyCounts, List.map_map]
    rfl
  rw [← hsum]
  refine Counter.totalOf_of_perm hperm ?_
  rw [hsum]
  exact Nat.le_trans (occurrences_le _ _ _ _) hfew

def burst (window n : Nat) : List (Nat × Request Nat) :=
  List.replicate n (0, .increment "a" window .undefined)

theorem burst_succ (window n : Nat) :
    burst window (n + 1) = burst window n ++ [(0, .increment "a" window .undefined)] :=
  List.replicate_succ'

theorem le_of_mem_burst {call : Nat × Request Nat} (h : call ∈ burst window n) (T : Nat) :
    call.1 ≤ T := by
  rw [List.eq_of_mem_replicate h]
  exact Nat.zero_le T

theorem paced_burst {window : Nat} (hpos : 1 ≤ window) (hw : window ≤ 10 ^ 9) (n : Nat) :
    Paced (burst window n) := by
  refine ⟨?_, fun call hmem => le_of_mem_burst hmem _, fun call hmem => ?_⟩
  · rw [burst, List.map_replicate]
    exact List.pairwise_replicate.mpr (.inr (Nat.le_refl 0))
  · rw [List.eq_of_mem_replicate hmem]
    exact ⟨"a", window, rfl, hpos, hw⟩

theorem countP_burst (window n : Nat) :
    ((burst window n).countP fun call => call.2.isIncrement) = n := by
  simp [burst, List.countP_replicate]

theorem tally_burst (window n : Nat) (bucket : Int) :
    tally (burst window n) "a" window bucket = if bucket = 0 then n else 0 := by
  rw [tally, burst, List.countP_replicate]
  simp [Request.increments, Bucket.wholeId, eq_comm]

-- ---------------------------------------------------------------------------
-- What a store has to do
-- ---------------------------------------------------------------------------

theorem foundBy_counts (shown : Nat → Value) {look : String → Option Value}
    {counts : List (String × Nat)}
    (h : ∀ count ∈ counts, look count.1 = if 0 < count.2 then some (shown count.2) else none) :
    foundBy look (counts.map Prod.fst) =
      (counts.filter (0 < ·.2)).map fun count => (count.1, shown count.2) := by
  induction counts with
  | nil => rfl
  | cons count rest ih =>
    have hlook := h count List.mem_cons_self
    have hrest := ih fun other hmem => h other (List.mem_cons_of_mem _ hmem)
    by_cases hpos : 0 < count.2
    · rw [if_pos hpos] at hlook
      rw [List.map_cons, foundBy_cons_some hlook, hrest]
      simp [hpos]
    · rw [if_neg hpos] at hlook
      rw [List.map_cons, foundBy_cons_none hlook, hrest]
      simp [hpos]

theorem denotes_counts (shown : Nat → Value) {counts : List (String × Nat)}
    (h : ∀ count ∈ counts, Denotes (.text count.1, shown count.2) count.2) :
    List.Forall₂ Denotes
      (((counts.filter (0 < ·.2)).map fun count => (count.1, shown count.2)).map
        fun entry => (.text entry.1, entry.2)) ((counts.map Prod.snd).filter (0 < ·)) := by
  rw [List.filter_map, List.map_map, List.forall₂_map_left_iff, List.forall₂_map_right_iff]
  exact List.forall₂_same.mpr fun count hmem => h count (List.mem_filter.mp hmem).1

/-- A time to live that, from a reading on, does not end before a deadline. -/
structure Lasts (T : Nat) (ttl : Binary64) (deadline : Int) : Prop where
  early : T ≤ 10 ^ 14
  positive : Binary64.zero.lt ttl = true
  milliseconds : ∃ least most : Nat, (ttl * 1000).Within (least * unitsPerOne) (most * unitsPerOne) ∧
    1 ≤ least ∧ most ≤ 2 * 10 ^ 12 ∧ deadline ≤ (T + least : Nat)

theorem Bucket.lasts_ttl {window T : Nat} (hpos : 1 ≤ window) (hw : window ≤ 10 ^ 9)
    (hT : T ≤ 10 ^ 14) (requested : Value) :
    Lasts T (ttl (ofNat window) requested) (deadline window (wholeId window T)) :=
  ⟨hT, ttl_pos hpos hw requested, _, _, milliseconds_within hpos hw requested, by omega, by omega,
    deadline_wholeId_le window T⟩

/-- A store with what it keeps of the buckets. A count is kept up to a deadline only, and no
bucket is written or read after its own. -/
structure CountingStore (σ : Type) where
  store : CounterStore σ
  /-- How far the store can count. -/
  limit : Nat
  Ready : σ → Prop
  /-- At a reading, a key has a count and will have it until a deadline. -/
  Keeps : (T : Nat) → (key : String) → (n : Nat) → (deadline : Int) → σ → Prop
  isInitialized : Ready s → ∀ T, Evaluates (store (ofNat T) .isInitialized) s (.bool true) s
  later : Keeps t key n deadline s → t ≤ T → Keeps T key n deadline s
  write : Ready s → Keeps T key n deadline s → T < deadline → n < limit → Lasts T ttl deadline →
    ∃ written s', Evaluates
      (Counter.incrementBucket { store := store, now := ofNat T } key ttl) s (.number written) s' ∧
      Ready s' ∧ Keeps T key (n + 1) deadline s' ∧
      ∀ other n' deadline', other ≠ key → Keeps T other n' deadline' s →
        Keeps T other n' deadline' s'
  /-- Keys with their counts, read at once. -/
  read {T : Nat} {counts : List (String × Nat)} : Ready s → T ≤ 10 ^ 14 →
    (counts.map Prod.fst).Nodup →
    (∀ count ∈ counts, ∃ deadline : Int, T < deadline ∧ Keeps T count.1 count.2 deadline s) →
    ∃ entries ns s', Evaluates
      (store (ofNat T) (.getMulti (.list ((counts.map Prod.fst).map .text)))) s (.table entries) s' ∧
      List.Forall₂ Denotes entries ns ∧ ns.Perm ((counts.map Prod.snd).filter (0 < ·)) ∧ Ready s' ∧
      ∀ key n deadline, Keeps T key n deadline s → Keeps T key n deadline s'

namespace CountingStore

variable {σ : Type} {c : CountingStore σ}

/-- What a store keeps after some calls, at a reading. -/
structure Holds (c : CountingStore σ) (calls : List (Nat × Request Nat)) (T : Nat) (s : σ) :
    Prop where
  ready : c.Ready s
  keeps : ∀ name window bucket, c.Keeps T (wholeKey name window bucket)
    (tally calls name window bucket) (Bucket.deadline window bucket) s

-- ---------------------------------------------------------------------------
-- One call
-- ---------------------------------------------------------------------------

section
variable {before calls : List (Nat × Request Nat)} {s : σ} {name : String} {window t T : Nat}

theorem Holds.later (h : c.Holds calls t s) (hle : t ≤ T) : c.Holds calls T s :=
  ⟨h.ready, fun name window bucket => c.later (h.keeps name window bucket) hle⟩

theorem Holds.query (h : c.Holds before T s) (name : String) (window : Nat) :
    c.Holds (before ++ [(T, .query name window)]) T s := by
  refine ⟨h.ready, fun name' window' bucket => ?_⟩
  have hkeeps := h.keeps name' window' bucket
  rw [tally_append]
  simpa [Request.increments] using hkeeps

theorem Holds.write (h : c.Holds before T s) (hpos : 1 ≤ window) (hw : window ≤ 10 ^ 9)
    (hT : T ≤ 10 ^ 14) (hfew : tally before name window (wholeId window T) < c.limit)
    (maxTtl : Value) : ∃ written s', Evaluates
      (Counter.incrementBucket { store := c.store, now := ofNat T }
        (wholeKey name window (wholeId window T)) (Bucket.ttl (ofNat window) maxTtl)) s
      (.number written) s' ∧ c.Holds (before ++ [(T, .increment name window maxTtl)]) T s' := by
  have hcovers : wholeId window (T - 1000 * window) ≤ wholeId window T :=
    Bucket.wholeId_mono (by omega)
  obtain ⟨written, s', hrun, hready, hwritten, hothers⟩ := c.write h.ready
    (h.keeps name window (wholeId window T)) (Bucket.lt_deadline hcovers) hfew
    (Bucket.lasts_ttl hpos hw hT maxTtl)
  refine ⟨written, s', hrun, hready, fun name' window' bucket => ?_⟩
  by_cases hkey : wholeKey name' window' bucket = wholeKey name window (wholeId window T)
  · obtain ⟨rfl, rfl, rfl⟩ := Bucket.wholeKey_inj hkey
    rw [tally_increment]
    exact hwritten
  · rw [tally_increment_of_ne hkey]
    exact hothers _ _ _ hkey (h.keeps name' window' bucket)

theorem Holds.keeps_keyCounts (h : c.Holds calls T s) (name : String) (window : Nat) :
    ∀ count ∈ keyCounts calls name window T, ∃ deadline : Int, T < deadline ∧
      c.Keeps T count.1 count.2 deadline s := by
  intro count hmem
  obtain ⟨bucket, hbucket, rfl⟩ := List.mem_map.mp hmem
  exact ⟨_, Bucket.lt_deadline (Bucket.mem_between.mp hbucket).1, h.keeps name window bucket⟩

theorem Holds.read (h : c.Holds calls T s) (hw : window ≤ 10 ^ 9) (hT : T ≤ 10 ^ 14)
    (name : String) : ∃ ns s', Evaluates
      (Counter.readWindow { store := c.store, now := ofNat T } (.text name) (ofNat window)) s
      ⟨totalOf ns, true⟩ s' ∧ ns.Perm (coveredCounts calls name window T) ∧ c.Holds calls T s' := by
  obtain ⟨entries, ns, s', hrun, hdenotes, hperm, hready, hkeeps⟩ :=
    c.read h.ready hT (nodup_keyCounts calls name window T) (h.keeps_keyCounts name window)
  rw [keys_keyCounts] at hrun
  exact ⟨ns, s', Counter.evaluates_readWindow_whole hT hw hrun hdenotes, hperm, hready,
    fun name window bucket => hkeeps _ _ _ (h.keeps name window bucket)⟩

theorem Holds.serve {request : Request Nat} (h : c.Holds before T s)
    (hp : Paced (before ++ [(T, request)])) (hcounter : request.counter? = some (name, window))
    (hroom : tally (before ++ [(T, request)]) name window (wholeId window T) ≤ c.limit) :
    ∃ ns s', Evaluates (serveWhole c.store (T, request)) s (.number (totalOf ns)) s' ∧
      ns.Perm (coveredCounts (before ++ [(T, request)]) name window T) ∧
      c.Holds (before ++ [(T, request)]) T s' := by
  have hT : T ≤ 10 ^ 14 := hp.early_last
  obtain ⟨hpos, hw⟩ := hp.window_last hcounter
  have hinit : Evaluates (c.store (ofNat T) .isInitialized) s (.bool true) s :=
    c.isInitialized h.ready T
  have hvalid := validWindow?_ofNat hpos hw
  cases request with
  | increment name' window' maxTtl =>
    cases hcounter
    rw [tally_increment] at hroom
    obtain ⟨written, s', hwrite, hafter⟩ := h.write hpos hw hT hroom maxTtl
    obtain ⟨ns, s'', hread, hperm, hheld⟩ := hafter.read hw hT name
    rw [← currentBucket_ofNat hT hw name] at hwrite
    exact ⟨ns, s'', Counter.evaluates_increment (w := { store := c.store, now := ofNat T }) hinit
      hvalid (Value.asText_text name) hwrite hread rfl, hperm, hheld⟩
  | query name' window' =>
    cases hcounter
    obtain ⟨ns, s', hread, hperm, hheld⟩ := (h.query name window).read hw hT name
    exact ⟨ns, s', Counter.evaluates_query (w := { store := c.store, now := ofNat T }) hinit
      hvalid hread rfl, hperm, hheld⟩
  | _ => cases hcounter

-- ---------------------------------------------------------------------------
-- Whole runs
-- ---------------------------------------------------------------------------

theorem holds_stateAfter (hstart : c.Holds [] 0 s) (calls : List (Nat × Request Nat))
    (hp : Paced calls) (hfew : (calls.countP fun call => call.2.isIncrement) ≤ c.limit)
    (hle : ∀ call ∈ calls, call.1 ≤ T) :
    c.Holds calls T (Action.stateAfter (serveWhole c.store) s calls) := by
  refine Action.stateAfter_induct (I := fun calls s' => Paced calls →
    (calls.countP fun call => call.2.isIncrement) ≤ c.limit →
      ∀ T, (∀ call ∈ calls, call.1 ≤ T) → c.Holds calls T s')
    (fun _ _ T _ => hstart.later (Nat.zero_le T)) ?_ calls hp hfew T hle
  intro before call s' ih hp hfew T hle
  obtain ⟨t, request⟩ := call
  obtain ⟨name, window, hcounter, -⟩ :=
    hp.windows _ (List.mem_append_right _ List.mem_cons_self)
  have hbefore : (before.countP fun call => call.2.isIncrement) ≤ c.limit := by
    rw [List.countP_append] at hfew
    omega
  have hholds := ih hp.init hbefore t hp.le_last
  obtain ⟨ns, s'', hrun, -, hafter⟩ :=
    hholds.serve hp hcounter (Nat.le_trans (tally_le _ _ _ _) hfew)
  rw [hrun.state]
  exact hafter.later (hle _ (List.mem_append_right _ List.mem_cons_self))

theorem reply_of_counts {request : Request Nat} (hstart : c.Holds [] 0 s)
    (hp : Paced (before ++ [(T, request)])) (hcounter : request.counter? = some (name, window))
    (hfew : ((before ++ [(T, request)]).countP fun call => call.2.isIncrement) ≤ c.limit) :
    ∃ ns, ns.Perm (coveredCounts (before ++ [(T, request)]) name window T) ∧
      (serveWhole c.store (T, request) (Action.stateAfter (serveWhole c.store) s before)).reply =
        .ok (.number (totalOf ns)) := by
  have hbefore : (before.countP fun call => call.2.isIncrement) ≤ c.limit := by
    rw [List.countP_append] at hfew
    omega
  have hholds := holds_stateAfter hstart before hp.init hbefore hp.le_last
  obtain ⟨ns, s', hrun, hperm, -⟩ := hholds.serve hp hcounter (Nat.le_trans (tally_le _ _ _ _) hfew)
  exact ⟨ns, hperm, hrun.reply⟩

theorem reply_eq {request : Request Nat} (hstart : c.Holds [] 0 s)
    (hp : Paced (before ++ [(T, request)])) (hcounter : request.counter? = some (name, window))
    (hfew : ((before ++ [(T, request)]).countP fun call => call.2.isIncrement) ≤ c.limit)
    (hexact : ((before ++ [(T, request)]).countP fun call => call.2.isIncrement) ≤ 2 ^ 53) :
    (serveWhole c.store (T, request) (Action.stateAfter (serveWhole c.store) s before)).reply =
      .ok (.number (ofNat (occurrences (before ++ [(T, request)]) name window T))) := by
  obtain ⟨ns, hperm, hreply⟩ := reply_of_counts hstart hp hcounter hfew
  rw [hreply, totalOf_coveredCounts hperm hexact]

end

end CountingStore

end SlidingTally
