import SlidingTally.Proofs.Number.Exact
import SlidingTally.Proofs.Window.Grid
import SlidingTally.Store.Memory

/-!
# The lifetime of a bucket

Whatever time to live is asked for, a bucket of a whole window gets at least the window and one
bucket, and at most twice the window. So it is still there at every reading whose window covers
it, all of which come before its `deadline`. For windows of any length the time to live is a second
at least, which takes every reading below 2^63 further. Main statements: `ttl_within`,
`ttl_of_between`, `lt_add_ttl`, `lt_deadline` and `expiry_outlasts`.
-/

namespace SlidingTally

namespace Binary64

theorem units_max {x y : Binary64} (hx : x.isFinite = true) (hy : y.isFinite = true) :
    (Binary64.max x y).isFinite = true ∧
      (Binary64.max x y).units = Max.max x.units y.units := by
  unfold Binary64.max
  rw [isNaN_of_isFinite hx, isNaN_of_isFinite hy, Bool.or_false, if_neg Bool.false_ne_true]
  simp only [lt_iff_units hx hy, lt_iff_units hy hx]
  split
  · exact ⟨hy, by omega⟩
  · split
    · exact ⟨hx, by omega⟩
    · split
      · exact ⟨hy, by omega⟩
      · exact ⟨hx, by omega⟩

theorem units_min {x y : Binary64} (hx : x.isFinite = true) (hy : y.isFinite = true) :
    (Binary64.min x y).isFinite = true ∧
      (Binary64.min x y).units = Min.min x.units y.units := by
  unfold Binary64.min
  rw [isNaN_of_isFinite hx, isNaN_of_isFinite hy, Bool.or_false, if_neg Bool.false_ne_true]
  simp only [lt_iff_units hx hy, lt_iff_units hy hx]
  split
  · exact ⟨hx, by omega⟩
  · split
    · exact ⟨hy, by omega⟩
    · split
      · exact ⟨hx, by omega⟩
      · exact ⟨hy, by omega⟩

section
variable {x y : Binary64} (hx : x.isFinite = true) (hy : y.isFinite = true)
include hx hy

theorem max_eq_right (hpos : 0 < x.units) (h : x.units ≤ y.units) : Binary64.max x y = y := by
  unfold Binary64.max
  rw [isNaN_of_isFinite hx, isNaN_of_isFinite hy, Bool.or_false, if_neg Bool.false_ne_true]
  simp only [lt_iff_units hx hy, lt_iff_units hy hx]
  split
  · rfl
  · rw [if_neg (by omega), isNegative_of_pos hpos, if_neg Bool.false_ne_true]
    exact eq_of_units_ne_zero hx hy (by omega) (by omega)

theorem min_eq_left (hpos : 0 < x.units) (h : x.units ≤ y.units) : Binary64.min x y = x := by
  unfold Binary64.min
  rw [isNaN_of_isFinite hx, isNaN_of_isFinite hy, Bool.or_false, if_neg Bool.false_ne_true]
  simp only [lt_iff_units hx hy, lt_iff_units hy hx]
  split
  · rfl
  · rw [if_neg (by omega), isNegative_of_pos hpos, if_neg Bool.false_ne_true]
    exact (eq_of_units_ne_zero hx hy (by omega) (by omega)).symm

end

section
variable {x y : Binary64} (hx : x.isNaN = false) (hy : y.isNaN = false)
include hx hy

theorem isNaN_min : (Binary64.min x y).isNaN = false := by
  unfold Binary64.min
  rw [hx, hy, Bool.or_false, if_neg Bool.false_ne_true]
  split
  · exact hx
  · split
    · exact hy
    · split
      · exact hx
      · exact hy

theorem le_max_left : x.le (Binary64.max x y) = true := by
  unfold Binary64.max
  rw [hx, hy, Bool.or_false, if_neg Bool.false_ne_true]
  split
  · rename_i hlt
    exact le_iff.mpr ⟨hx, hy, Int.le_of_lt (lt_iff.mp hlt).2.2⟩
  · split
    · exact le_refl hx
    · split
      · rename_i hnot _
        rw [lt_iff] at hnot
        exact le_iff.mpr ⟨hx, hy, Int.not_lt.mp fun hlt => hnot ⟨hy, hx, hlt⟩⟩
      · exact le_refl hx

end

end Binary64

namespace Bucket

open Binary64

-- ---------------------------------------------------------------------------
-- Windows of any length
-- ---------------------------------------------------------------------------

section
variable {window : Binary64} (hpos : Binary64.zero.lt window = true)
include hpos

theorem le_ttlAtLeast {least : Binary64} (hleast : least.isNaN = false) (requested : Value) :
    least.le (ttlAtLeast least window requested) = true := by
  have hceiling : (window * 2).isNaN = false := (boundedBelow_mul hpos (by decide +kernel)).isNaN
  refine le_max_left hleast (isNaN_min ?_ hceiling)
  split
  · split
    · rename_i hfinite
      exact isNaN_of_isFinite hfinite
    · exact hceiling
  · exact hceiling

theorem one_le_ttl (requested : Value) : (1 : Binary64).le (ttl window requested) = true := by
  obtain ⟨width, hwidth, hone, -⟩ := width_is window
  have hwidthOne : (1 : Binary64).le (Bucket.width window) = true :=
    (one_is.le_iff hwidth).mpr (by omega)
  have hzero : Binary64.zero.le 1 = true := by decide +kernel
  obtain ⟨hnanZero, hnan, hlt⟩ := lt_iff.mp hpos
  have hwindow : Binary64.zero.le window = true := le_iff.mpr ⟨hnanZero, hnan, Int.le_of_lt hlt⟩
  have hleast := le_trans hwidthOne (le_add_left hwindow (le_trans hzero hwidthOne))
  exact le_trans hleast (le_ttlAtLeast hpos (le_iff.mp hleast).2.1 requested)

theorem thousand_le_milliseconds (requested : Value) :
    (1000 : Binary64).le (ttl window requested * 1000) = true := by
  have hone := one_le_ttl hpos requested
  generalize ttl window requested = seconds at hone
  rcases nonneg_cases (le_trans (by decide +kernel) hone) with rfl | ⟨hfinite, -⟩
  · decide +kernel
  · have hunits := unitsPerOne_cast_pos
    have hthousand : 0 < (1000 : Binary64).units := by decide +kernel
    have hwhole := representable_whole (k := 1000) (by decide)
    have hle := (le_iff.mp hone).2.2
    rw [rank_of_isFinite one_is.1, rank_of_isFinite hfinite, one_is.2, Int.one_mul] at hle
    have hproduct : 1000 * unitsPerOne * unitsPerOne ≤ seconds.units * (1000 : Binary64).units := by
      rw [thousand_is.2, Int.mul_comm]
      gcongr
    obtain ⟨hnan, hrank⟩ := le_rank_mul (x := seconds) (m := 1000 * unitsPerOne) (by omega) hthousand
      hwhole.1 hwhole.2 (by exact_mod_cast hproduct)
    refine le_iff.mpr ⟨isNaN_of_isFinite thousand_is.1, hnan, ?_⟩
    rw [rank_of_isFinite thousand_is.1, thousand_is.2]
    exact_mod_cast hrank

/-- Below 2^63 a second makes a difference to a reading, and so does every time to live. -/
theorem lt_add_ttl {now : Binary64} (hnow : Binary64.zero.le now = true)
    (hsmall : now.lt (ofNat (2 ^ 63)) = true) (requested : Value) :
    now.lt (now + ttl window requested * 1000) = true := by
  obtain ⟨-, hnan, hrank⟩ := le_iff.mp (thousand_le_milliseconds hpos requested)
  have hunits := unitsPerOne_cast_pos
  rw [rank_of_isFinite thousand_is.1, thousand_is.2] at hrank
  exact lt_add_of_half 10 (by decide) hnow hsmall hnan (by omega)

end

-- ---------------------------------------------------------------------------
-- Windows of whole seconds
-- ---------------------------------------------------------------------------

theorem ttlAtLeast_eq {window : Binary64} (least : Binary64) (requested : Value)
    (h : (window * 2).isFinite = true) :
    ∃ wanted, wanted.isFinite = true ∧
      ttlAtLeast least window requested = Binary64.max least (Binary64.min wanted (window * 2)) := by
  unfold ttlAtLeast
  cases requested.number? with
  | none => exact ⟨window * 2, h, rfl⟩
  | some seconds =>
    cases hs : seconds.isFinite with
    | true => exact ⟨seconds, hs, by simp [hs]⟩
    | false => exact ⟨window * 2, h, by simp [hs]⟩

section
variable {window : Nat}

theorem least_is (hw : window ≤ 10 ^ 9) :
    (ofNat window + width (ofNat window)).Is (window + wholeWidth window : Nat) := by
  have hwidth := (wholeWidth_bounds window).2
  rw [width_ofNat (by omega), ofNat_add (by omega)]
  exact is_ofNat (by omega)

theorem ceiling_is (hw : window ≤ 10 ^ 9) : (ofNat window * 2).Is (2 * window : Nat) := by
  have hwindow : (ofNat window).Is window := is_ofNat (by omega)
  have h := hwindow.mul (is_ofNat (n := 2) (by decide)) (by omega)
  rwa [Int.mul_comm] at h

end

theorem ttl_within {window : Nat} (hpos : 1 ≤ window) (hw : window ≤ 10 ^ 9) (requested : Value) :
    (ttl (ofNat window) requested).Within (((window + wholeWidth window : Nat) : Int) * unitsPerOne)
      (((2 * window : Nat) : Int) * unitsPerOne) := by
  have hwidth := wholeWidth_le hpos
  have hleast := least_is hw
  have hceiling := ceiling_is hw
  have hroom : ((window + wholeWidth window : Nat) : Int) * unitsPerOne ≤
      ((2 * window : Nat) : Int) * unitsPerOne := by
    have := unitsPerOne_cast_pos
    gcongr
    omega
  obtain ⟨wanted, hfinite, heq⟩ := ttlAtLeast_eq (ofNat window + width (ofNat window)) requested
    hceiling.1
  rw [ttl, heq]
  obtain ⟨hmin, hminUnits⟩ := units_min hfinite hceiling.1
  obtain ⟨hmax, hmaxUnits⟩ := units_max hleast.1 hmin
  refine ⟨hmax, ?_, ?_⟩
  · rw [hmaxUnits, hleast.2]
    exact Int.le_max_left _ _
  · rw [hmaxUnits, hminUnits, hleast.2, hceiling.2]
    exact Int.max_le.mpr ⟨hroom, Int.min_le_right _ _⟩

theorem ttl_of_between {window : Nat} {asked : Binary64} (hpos : 1 ≤ window) (hw : window ≤ 10 ^ 9)
    (hge : (ofNat window + width (ofNat window)).le asked = true)
    (hle : asked.le (ofNat window * 2) = true) : ttl (ofNat window) (.number asked) = asked := by
  have hleast := least_is hw
  have hceiling := ceiling_is hw
  have hasked := within_of_le hleast.1 hceiling.1 hge hle
  have hleastPos : 0 < (ofNat window + width (ofNat window)).units := by
    rw [hleast.2]
    exact Int.mul_pos (by omega) unitsPerOne_cast_pos
  have hwanted : ttl (ofNat window) (.number asked) =
      Binary64.max (ofNat window + width (ofNat window)) (Binary64.min asked (ofNat window * 2)) := by
    simp [ttl, ttlAtLeast, Value.number?, hasked.finite]
  rw [hwanted, min_eq_left hasked.finite hceiling.1 (Int.lt_of_lt_of_le hleastPos hasked.ge) hasked.le,
    max_eq_right hleast.1 hasked.finite hleastPos hasked.ge]

theorem ttl_pos {window : Nat} (hpos : 1 ≤ window) (hw : window ≤ 10 ^ 9) (requested : Value) :
    Binary64.zero.lt (ttl (ofNat window) requested) = true := by
  apply zero_is.within.lt_within (ttl_within hpos hw requested)
  have := unitsPerOne_cast_pos
  gcongr
  omega

theorem milliseconds_within {window : Nat} (hpos : 1 ≤ window) (hw : window ≤ 10 ^ 9)
    (requested : Value) : (ttl (ofNat window) requested * 1000).Within
      (((1000 * (window + wholeWidth window) : Nat) : Int) * unitsPerOne)
      (((2000 * window : Nat) : Int) * unitsPerOne) := by
  have hwidth := wholeWidth_bounds window
  have hunits := unitsPerOne_cast_pos
  have httl := ttl_within hpos hw requested
  apply mul_within httl.finite thousand_is.1
  · exact representable_whole (by omega)
  · exact representable_whole (by omega)
  · rw [thousand_is.2]
    have hge := httl.ge
    calc ((1000 * (window + wholeWidth window) : Nat) : Int) * unitsPerOne * unitsPerOne
        = (window + wholeWidth window : Nat) * unitsPerOne * (1000 * unitsPerOne) := by
          push_cast
          ring
      _ ≤ (ttl (ofNat window) requested).units * (1000 * unitsPerOne) := by gcongr
  · rw [thousand_is.2]
    have hle := httl.le
    calc (ttl (ofNat window) requested).units * (1000 * unitsPerOne)
        ≤ (2 * window : Nat) * unitsPerOne * (1000 * unitsPerOne) := by gcongr
      _ = ((2000 * window : Nat) : Int) * unitsPerOne * unitsPerOne := by
          push_cast
          ring

theorem sum_within {window t : Nat} (hpos : 1 ≤ window) (hw : window ≤ 10 ^ 9) (ht : t ≤ 10 ^ 14)
    (requested : Value) : (ofNat t + ttl (ofNat window) requested * 1000).Within
      (((t + 1000 * (window + wholeWidth window) : Nat) : Int) * unitsPerOne)
      (((t + 2000 * window : Nat) : Int) * unitsPerOne) := by
  have hwidth := wholeWidth_bounds window
  have hreading : (ofNat t).Is t := is_ofNat (by omega)
  apply add_within hreading.within (milliseconds_within hpos hw requested)
  · exact representable_whole (by omega)
  · exact representable_whole (by omega)
  · exact Int.le_of_eq (by push_cast; ring)
  · exact Int.le_of_eq (by push_cast; ring)

-- ---------------------------------------------------------------------------
-- The last reading that a bucket is for
-- ---------------------------------------------------------------------------

/-- The first millisecond at which no window covers a bucket any more. -/
def deadline (window : Nat) (bucket : Int) : Int :=
  1000 * ((bucket + 1) * wholeWidth window + window)

theorem lt_deadline {window T : Nat} {bucket : Int}
    (hcovers : wholeId window (T - 1000 * window) ≤ bucket) : (T : Int) < deadline window bucket := by
  have hwidth := (wholeWidth_bounds window).1
  have hscale : (0 : Int) < 1000 * wholeWidth window := by omega
  have hlt : (T : Int) - 1000 * window < (bucket + 1) * (1000 * wholeWidth window) := by
    apply Int.lt_of_lt_of_le (Int.lt_ediv_add_one_mul_self _ hscale)
    exact Int.mul_le_mul_of_nonneg_right (Int.add_le_add_right hcovers 1) (Int.le_of_lt hscale)
  have hmul : (bucket + 1) * (1000 * wholeWidth window) =
      1000 * ((bucket + 1) * wholeWidth window) := by ring
  unfold deadline
  omega

theorem deadline_wholeId_le (window t : Nat) :
    deadline window (wholeId window t) ≤ (t + 1000 * (window + wholeWidth window) : Nat) := by
  have hwidth := (wholeWidth_bounds window).1
  have hbucket : wholeId window t * (1000 * wholeWidth window) ≤ t :=
    Int.ediv_mul_le _ (by omega)
  unfold deadline
  push_cast
  linarith

structure Outlasts (window : Nat) (bucket : Int) (instant : Binary64) : Prop where
  finite : instant.isFinite = true
  ge : 1000 * ((bucket + 1) * wholeWidth window + window) * unitsPerOne ≤ instant.units

theorem Outlasts.lt {window T : Nat} (h : Outlasts window bucket instant) (hT : T ≤ 10 ^ 14)
    (hcovers : wholeId window (T - 1000 * window) ≤ bucket) : (ofNat T).lt instant = true := by
  have hreading : (ofNat T).Is T := is_ofNat (by omega)
  apply hreading.within.lt_within (within_units h.finite)
  exact Int.lt_of_lt_of_le (Int.mul_lt_mul_of_pos_right (lt_deadline hcovers) unitsPerOne_cast_pos)
    h.ge

theorem expiry_outlasts {window t : Nat} (hpos : 1 ≤ window) (hw : window ≤ 10 ^ 9)
    (ht : t ≤ 10 ^ 14) (requested : Value) :
    ∃ instant, MemoryStore.expiry (ofNat t) (ttl (ofNat window) requested) = some instant ∧
      Outlasts window (wholeId window t) instant := by
  have hinstant := sum_within hpos hw ht requested
  refine ⟨_, if_pos (ttl_pos hpos hw requested), hinstant.finite, Int.le_trans ?_ hinstant.ge⟩
  exact Int.mul_le_mul_of_nonneg_right (deadline_wholeId_le window t)
    (Int.le_of_lt unitsPerOne_cast_pos)

end Bucket

end SlidingTally
