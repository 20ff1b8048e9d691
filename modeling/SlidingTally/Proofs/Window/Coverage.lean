import SlidingTally.Proofs.Window.ExactCount

/-!
# What a window covers

A window is read in whole buckets, the one that it begins in and the current one among them. So all
that happened within it is in the buckets that are read, and nothing in them is older than the
window and one bucket, nor has any of them expired. Main statements: `window_covers` and
`ttl_outlives_windows`.
-/

namespace SlidingTally

open Binary64 (ofNat)
open Bucket (wholeId wholeKey wholeWidth covered)
open Request (serveWhole)

-- ---------------------------------------------------------------------------
-- Moments and buckets
-- ---------------------------------------------------------------------------

namespace Bucket

section
variable {window T t : Nat}

theorem lt_of_wholeId_le {a b : Int} (h : wholeId window a ≤ wholeId window b) :
    a < b + 1000 * wholeWidth window := by
  have hwidth : (0 : Int) < 1000 * wholeWidth window := by
    have := (wholeWidth_bounds window).1
    omega
  calc a < (wholeId window a + 1) * (1000 * wholeWidth window) :=
        Int.lt_ediv_add_one_mul_self a hwidth
    _ ≤ (wholeId window b + 1) * (1000 * wholeWidth window) :=
        Int.mul_le_mul_of_nonneg_right (by omega) (Int.le_of_lt hwidth)
    _ = wholeId window b * (1000 * wholeWidth window) + 1000 * wholeWidth window := by ring
    _ ≤ b + 1000 * wholeWidth window := by
        have : wholeId window b * (1000 * wholeWidth window) ≤ b :=
          Int.ediv_mul_le b (Int.ne_of_gt hwidth)
        omega

theorem mem_covered_of_within (hge : T ≤ t + 1000 * window) (hle : t ≤ T) :
    wholeId window t ∈ covered window T :=
  mem_between.mpr ⟨wholeId_mono (by omega), wholeId_mono (by omega)⟩

theorem lt_of_mem_covered (h : wholeId window t ∈ covered window T) :
    T < t + 1000 * (window + wholeWidth window) ∧ t < T + 1000 * wholeWidth window := by
  obtain ⟨hfirst, hlast⟩ := mem_between.mp h
  have hge := lt_of_wholeId_le hfirst
  have hle := lt_of_wholeId_le hlast
  omega

theorem currentBucket_mem_iff (ht : t ≤ 10 ^ 14) (hw : window ≤ 10 ^ 9) (name : String) :
    Counter.currentBucket (ofNat t) name (ofNat window) ∈
      (covered window T).map (wholeKey name window) ↔ wholeId window t ∈ covered window T := by
  rw [currentBucket_ofNat ht hw name, List.mem_map]
  constructor
  · rintro ⟨id, hmem, heq⟩
    rwa [← (wholeKey_inj heq).2.2]
  · exact fun h => ⟨_, h, rfl⟩

end

end Bucket

-- ---------------------------------------------------------------------------
-- Occurrences
-- ---------------------------------------------------------------------------

section
variable {calls : List (Nat × Request Nat)} {name : String} {window T : Nat}

def recent (calls : List (Nat × Request Nat)) (name : String) (window T age : Nat) : Nat :=
  calls.countP fun call => call.2.increments name window && T ≤ call.1 + 1000 * age

def younger (calls : List (Nat × Request Nat)) (name : String) (window T age : Nat) : Nat :=
  calls.countP fun call => call.2.increments name window && T < call.1 + 1000 * age

theorem recent_le_occurrences (hpast : ∀ call ∈ calls, call.1 ≤ T) :
    recent calls name window T window ≤ occurrences calls name window T := by
  refine List.countP_mono_left fun call hmem h => ?_
  rw [Bool.and_eq_true, decide_eq_true_iff] at h
  obtain ⟨hfirst, hlast⟩ :=
    Bucket.mem_between.mp (Bucket.mem_covered_of_within h.2 (hpast call hmem))
  simp [h.1, hfirst, hlast]

theorem occurrences_le_younger :
    occurrences calls name window T ≤ younger calls name window T (window + wholeWidth window) := by
  refine List.countP_mono_left fun call _ h => ?_
  rw [Bool.and_eq_true, Bool.and_eq_true, decide_eq_true_iff, decide_eq_true_iff] at h
  have hlt := (Bucket.lt_of_mem_covered (Bucket.mem_between.mpr h.2)).1
  simp [h.1, hlt]

theorem Regular.past {before : List (Nat × Request Nat)} {last : Nat × Request Nat}
    (h : Regular (before ++ [last])) : ∀ call ∈ before ++ [last], call.1 ≤ last.1 := by
  have hsorted := h.sorted
  rw [List.map_append, List.pairwise_append] at hsorted
  intro call hmem
  rcases List.mem_append.mp hmem with hmem | hmem
  · exact hsorted.2.2 call.1 (List.mem_map_of_mem hmem) last.1 List.mem_cons_self
  · rw [List.mem_singleton.mp hmem]

theorem reply_within (options : MemoryStore.Options) {before : List (Nat × Request Nat)}
    {request : Request Nat} (h : Regular (before ++ [(T, request)]))
    (hcounter : request.counter? = some (name, window)) :
    ∃ total : Nat,
      (serveWhole (MemoryStore.store options) (T, request)
        (Action.stateAfter (serveWhole (MemoryStore.store options))
          (MemoryStore.start options {}).state before)).reply = .ok (.number (ofNat total)) ∧
      recent (before ++ [(T, request)]) name window T window ≤ total ∧
      total ≤ younger (before ++ [(T, request)]) name window T (window + wholeWidth window) := by
  have hreplies := replies_inMemory options h.sorted h.early
  rw [Action.replies_append, Action.replies_append] at hreplies
  have hreply := (List.append_singleton_inj.mp hreplies).2
  rw [reply_expiringMap options h hcounter] at hreply
  exact ⟨_, hreply, recent_le_occurrences h.past, occurrences_le_younger⟩

end

/-- All moments within a window fall into the buckets that are read for it, and only moments that
are less than one bucket outside of it do. So a total has every occurrence of the window in it, and
none that is older than the window by a bucket or more. -/
theorem window_covers {T window : Nat} (hT : T ≤ 10 ^ 14) (hw : window ≤ 10 ^ 9) (name : String) :
    let width := wholeWidth window
    Bucket.width (ofNat window) = ofNat width ∧ ∃ keys : List String,
      Bucket.keys? name (ofNat window) (Bucket.range (Counter.seconds (ofNat T)) (ofNat window)) =
        some keys ∧
      (∀ t ≤ 10 ^ 14,
        (T ≤ t + 1000 * window → t ≤ T →
          Counter.currentBucket (ofNat t) name (ofNat window) ∈ keys) ∧
        (Counter.currentBucket (ofNat t) name (ofNat window) ∈ keys →
          T < t + 1000 * (window + width) ∧ t < T + 1000 * width)) ∧
      ∀ (options : MemoryStore.Options) (before : List (Nat × Request Nat)) (request : Request Nat),
        Regular (before ++ [(T, request)]) → request.counter? = some (name, window) →
        ∃ total : Nat,
          (serveWhole (MemoryStore.store options) (T, request)
            (Action.stateAfter (serveWhole (MemoryStore.store options))
              (MemoryStore.start options {}).state before)).reply = .ok (.number (ofNat total)) ∧
          recent (before ++ [(T, request)]) name window T window ≤ total ∧
          total ≤ younger (before ++ [(T, request)]) name window T (window + width) := by
  intro width
  obtain ⟨ids, hids, hkeys⟩ := Bucket.keys_covered hT hw name
  refine ⟨Bucket.width_ofNat (by omega), (covered window T).map (wholeKey name window), ?_,
    fun t ht => ⟨fun hge hle => ?_, fun hmem => ?_⟩, ?_⟩
  · rw [← hkeys, Bucket.keys?]
    exact congrArg (Option.map _) hids
  · exact (Bucket.currentBucket_mem_iff ht hw name).mpr (Bucket.mem_covered_of_within hge hle)
  · exact Bucket.lt_of_mem_covered ((Bucket.currentBucket_mem_iff ht hw name).mp hmem)
  · exact fun options before request hr hcounter => reply_within options hr hcounter

/-- One second ago is covered to the millisecond, two seconds ago is not. -/
theorem window_covers_second : ∃ keys : List String,
    Bucket.keys? "a" (ofNat 1) (Bucket.range (Counter.seconds (ofNat 2999)) (ofNat 1)) = some keys ∧
      Counter.currentBucket (ofNat 1999) "a" (ofNat 1) ∈ keys ∧
      Counter.currentBucket (ofNat 999) "a" (ofNat 1) ∉ keys ∧
      ∃ total : Nat,
        (serveWhole (MemoryStore.store {}) (2999, .query "a" 1)
          (Action.stateAfter (serveWhole (MemoryStore.store {})) (MemoryStore.start {} {}).state
            [(999, .increment "a" 1 .undefined), (2000, .increment "a" 1 .undefined)])).reply =
          .ok (.number (ofNat total)) ∧ total = 1 := by
  obtain ⟨-, keys, hkeys, hmoments, htotal⟩ :=
    window_covers (T := 2999) (by decide) (show 1 ≤ 10 ^ 9 by decide) "a"
  have hregular : Regular [(999, .increment "a" 1 .undefined), (2000, .increment "a" 1 .undefined),
      (2999, .query "a" 1)] :=
    ⟨by decide, by decide, by decide, by simp [Request.counter?], by simp [Request.SparesBuckets]⟩
  obtain ⟨total, hreply, hge, hle⟩ := htotal {}
    [(999, .increment "a" 1 .undefined), (2000, .increment "a" 1 .undefined)] (.query "a" 1)
    hregular rfl
  refine ⟨keys, hkeys, (hmoments 1999 (by decide)).1 (by decide) (by decide), fun hmem => ?_, total,
    hreply, Nat.le_antisymm ?_ ?_⟩
  · exact absurd ((hmoments 999 (by decide)).2 hmem).1 (by decide)
  · exact Nat.le_trans hle (by decide)
  · exact Nat.le_trans (by decide) hge

-- ---------------------------------------------------------------------------
-- How long what is read lasts
-- ---------------------------------------------------------------------------

def BucketRange.Contains (range : BucketRange) (id : Binary64) : Prop :=
  range.first.le id = true ∧ id.le range.last = true

theorem Bucket.contains_iff {window t T : Nat} (ht : t ≤ 10 ^ 14) (hT : T ≤ 10 ^ 14)
    (hw : window ≤ 10 ^ 9) :
    (Bucket.range (Counter.seconds (ofNat T)) (ofNat window)).Contains
      (Bucket.id (Counter.seconds (ofNat t)) (Bucket.width (ofNat window))) ↔
        wholeId window t ∈ covered window T := by
  have hbucket := Bucket.id_is ht hw
  unfold BucketRange.Contains covered
  rw [Bucket.mem_between]
  exact and_congr ((Bucket.id_sub_is hT hw).le_iff hbucket) (hbucket.le_iff (Bucket.id_is hT hw))

/-- A bucket lasts longer than any window reads it, whatever time to live is asked for: at least
the window and one bucket and at most twice the window, or as asked if that is between the two. -/
theorem ttl_outlives_windows {window t T : Nat} (hpos : 1 ≤ window) (hw : window ≤ 10 ^ 9)
    (ht : t ≤ T) (hT : T ≤ 10 ^ 14) (requested : Value) :
    let width := Bucket.width (ofNat window)
    let ttl := Bucket.ttl (ofNat window) requested
    ((Bucket.range (Counter.seconds (ofNat T)) (ofNat window)).Contains
        (Bucket.id (Counter.seconds (ofNat t)) width) →
      (T : Int) * unitsPerOne < t * unitsPerOne + 1000 * ttl.units ∧
        (ofNat T).lt (ofNat t + ttl * 1000) = true) ∧
    (ofNat window + width).le ttl = true ∧ ttl.le (ofNat window * 2) = true ∧
    ∀ asked, requested = .number asked → (ofNat window + width).le asked = true →
      asked.le (ofNat window * 2) = true → ttl = asked := by
  intro width ttl
  have hunits := Binary64.unitsPerOne_cast_pos
  have httl := Bucket.ttl_within hpos hw requested
  have hsum := Bucket.sum_within hpos hw (ht.trans hT) requested
  have hreading : (ofNat T).Is T := Binary64.is_ofNat (by omega)
  refine ⟨fun hread => ?_, ?_, ?_, ?_⟩
  · have hmem := (Bucket.contains_iff (ht.trans hT) hT hw).mp hread
    have hlt : (T : Int) < (t + 1000 * (window + wholeWidth window) : Nat) := by
      exact_mod_cast (Bucket.lt_of_mem_covered hmem).1
    refine ⟨?_, hreading.within.lt_within hsum (Int.mul_lt_mul_of_pos_right hlt hunits)⟩
    calc (T : Int) * unitsPerOne
        < (t + 1000 * (window + wholeWidth window) : Nat) * unitsPerOne :=
          Int.mul_lt_mul_of_pos_right hlt hunits
      _ = t * unitsPerOne + 1000 * ((window + wholeWidth window : Nat) * unitsPerOne) := by
          push_cast
          ring
      _ ≤ t * unitsPerOne + 1000 * ttl.units := by
          have := httl.ge
          gcongr
  · exact (Bucket.least_is hw).within.le_within httl (Int.le_refl _)
  · exact httl.le_within (Bucket.ceiling_is hw).within (Int.le_refl _)
  · rintro asked rfl hge hle
    exact Bucket.ttl_of_between hpos hw hge hle

/-- The last millisecond at which a bucket of a one-second window is read is before its expiry. -/
theorem ttl_outlives_windows_last :
    (Bucket.range (Counter.seconds (ofNat 1999)) (ofNat 1)).Contains
        (Bucket.id (Counter.seconds (ofNat 0)) (Bucket.width (ofNat 1))) ∧
      (1999 : Int) * unitsPerOne <
        0 * unitsPerOne + 1000 * (Bucket.ttl (ofNat 1) (.number .nan)).units ∧
      Bucket.ttl (ofNat 1) (.number (ofNat 2)) = ofNat 2 := by
  have hread : (Bucket.range (Counter.seconds (ofNat 1999)) (ofNat 1)).Contains
      (Bucket.id (Counter.seconds (ofNat 0)) (Bucket.width (ofNat 1))) :=
    (Bucket.contains_iff (by decide) (by decide) (by decide)).mpr (by decide)
  refine ⟨hread, ?_, ?_⟩
  · exact ((ttl_outlives_windows (t := 0) (T := 1999) (by decide) (by decide) (by decide) (by decide)
      (.number .nan)).1 hread).1
  · refine (ttl_outlives_windows (t := 0) (T := 0) (by decide) (by decide) (by decide) (by decide)
      (.number (ofNat 2))).2.2.2 (ofNat 2) rfl ?_ ?_
    · exact (Bucket.least_is (by decide)).within.le_within
        (Binary64.is_ofNat (n := 2) (by decide)).within (Int.le_refl _)
    · exact (Binary64.is_ofNat (n := 2) (by decide)).within.le_within
        (Bucket.ceiling_is (by decide)).within (Int.le_refl _)

end SlidingTally
