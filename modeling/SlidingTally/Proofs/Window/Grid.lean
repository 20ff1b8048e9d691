import SlidingTally.Proofs.Number.Whole
import SlidingTally.Window.Bucket

/-!
# Buckets at whole milliseconds

At clock readings in whole milliseconds and for windows of whole seconds the arithmetic on
doubles finds the buckets that integer arithmetic finds. The quotient by a thousand is rounded,
but it stays `Tracks`: below the next whole second by more than any later rounding can make up.
Main statements: `id_is` and `id_sub_is`.
-/

namespace SlidingTally.Bucket

open Binary64

-- ---------------------------------------------------------------------------
-- Grains
-- ---------------------------------------------------------------------------

/-- The units in 2^-s, what keeps a rounded number below the next whole one. -/
@[irreducible] def grain (s : Nat) : Nat := 2 ^ (1074 - s)

theorem unitsPerOne_eq_grain (h : s ≤ 1074) : (unitsPerOne : Int) = 2 ^ s * grain s := by
  have heq : unitsPerOne = 2 ^ s * grain s := by
    unfold unitsPerOne grain
    generalize 1074 = exponent at h ⊢
    rw [← Nat.pow_add, Nat.add_sub_cancel' h, Nat.pow_eq]
  rw [heq]
  push_cast
  rfl

theorem grain_pos (s : Nat) : (0 : Int) < grain s := by
  have h : 0 < grain s := by
    unfold grain
    generalize 1074 - s = exponent
    exact Nat.two_pow_pos exponent
  exact_mod_cast h

theorem representable_grain {k : Int} (s : Nat) (h : k.natAbs ≤ 2 ^ 53) :
    Representable (k * grain s) := by
  unfold grain
  have he : 1074 - s < 2045 := by omega
  generalize 1074 - s = exponent at he ⊢
  exact representable_mul_pow h he

theorem representable_below {k : Int} (hs : s ≤ 1074) (h : (k * 2 ^ s - 1).natAbs ≤ 2 ^ 53) :
    Representable (k * unitsPerOne - grain s) := by
  have heq : k * unitsPerOne - grain s = (k * 2 ^ s - 1) * grain s := by
    rw [unitsPerOne_eq_grain hs]
    ring
  rw [heq]
  exact representable_grain s h

-- ---------------------------------------------------------------------------
-- Whole widths
-- ---------------------------------------------------------------------------

theorem width_is (window : Binary64) :
    ∃ width : Nat, (Bucket.width window).Is width ∧ 1 ≤ width ∧ width ≤ 600 := by
  unfold width
  split
  · exact ⟨1, one_is, by decide, by decide⟩
  · split
    · exact ⟨10, is_ofNat (n := 10) (by decide), by decide, by decide⟩
    · split
      · exact ⟨60, is_ofNat (n := 60) (by decide), by decide, by decide⟩
      · exact ⟨600, is_ofNat (n := 600) (by decide), by decide, by decide⟩

theorem width_pos (window : Binary64) :
    (width window).isFinite = true ∧ 0 < (width window).units := by
  obtain ⟨width, hwidth, hpos, -⟩ := width_is window
  refine ⟨hwidth.1, ?_⟩
  rw [hwidth.2]
  exact Int.mul_pos (by omega) unitsPerOne_cast_pos

def wholeWidth (window : Nat) : Nat :=
  if window ≤ 300 then 1
  else if window ≤ 3600 then 10
  else if window ≤ 86400 then 60
  else 600

theorem wholeWidth_bounds (window : Nat) : 1 ≤ wholeWidth window ∧ wholeWidth window ≤ 600 := by
  unfold wholeWidth
  split
  · omega
  · split
    · omega
    · split <;> omega

theorem width_ofNat {window : Nat} (h : window ≤ 2 ^ 53) :
    width (ofNat window) = ofNat (wholeWidth window) := by
  have hle (n : Nat) (hn : n ≤ 2 ^ 53) : (ofNat window).le (ofNat n) = decide (window ≤ n) := by
    rw [Bool.eq_iff_iff, (is_ofNat h).le_iff (is_ofNat hn)]
    simp
  have h₁ : (ofNat window).le 300 = decide (window ≤ 300) := hle 300 (by omega)
  have h₂ : (ofNat window).le 3600 = decide (window ≤ 3600) := hle 3600 (by omega)
  have h₃ : (ofNat window).le 86400 = decide (window ≤ 86400) := hle 86400 (by omega)
  unfold width wholeWidth
  rw [h₁, h₂, h₃]
  simp only [decide_eq_true_eq]
  split
  · rfl
  · split
    · rfl
    · split <;> rfl

theorem wholeWidth_le {window : Nat} (h : 1 ≤ window) : wholeWidth window ≤ window := by
  unfold wholeWidth
  split
  · omega
  · split
    · omega
    · split <;> omega

-- ---------------------------------------------------------------------------
-- The bucket of a moment
-- ---------------------------------------------------------------------------

def wholeId (window : Nat) (milliseconds : Int) : Int :=
  milliseconds / (1000 * wholeWidth window)

theorem wholeId_mono {window : Nat} {a b : Int} (h : a ≤ b) : wholeId window a ≤ wholeId window b := by
  have hwidth := (wholeWidth_bounds window).1
  exact Int.ediv_le_ediv (by omega) h

/-- A double in the same whole second as a number of milliseconds, and short of the next one by
at least 2^-10. -/
def Tracks (x : Binary64) (milliseconds : Int) : Prop :=
  x.Within (milliseconds / 1000 * unitsPerOne)
    ((milliseconds / 1000 + 1) * unitsPerOne - grain 10)

theorem tracks_seconds {t : Nat} (ht : t ≤ 10 ^ 14) : Tracks (ofNat t / 1000) t := by
  have hx : (ofNat t).Is t := is_ofNat (by omega)
  have hgrain := grain_pos 10
  have hunits := unitsPerOne_cast_pos
  have hlow : (t : Int) / 1000 * 1000 ≤ t := Int.ediv_mul_le _ (by decide)
  apply div_within hx.1 thousand_is.1
  · rw [thousand_is.2]
    exact Int.mul_pos (by decide) hunits
  · exact representable_whole (by omega)
  · exact representable_below (by decide) (by omega)
  · rw [hx.2, thousand_is.2]
    calc (t : Int) / 1000 * unitsPerOne * (1000 * unitsPerOne)
        = (t : Int) / 1000 * 1000 * (unitsPerOne * unitsPerOne) := by ring
      _ ≤ t * (unitsPerOne * unitsPerOne) := by gcongr
      _ = t * unitsPerOne * unitsPerOne := by ring
  · rw [hx.2, thousand_is.2]
    have hkey : (t : Int) * unitsPerOne ≤
        (((t : Int) / 1000 + 1) * unitsPerOne - grain 10) * 1000 := by
      rw [unitsPerOne_eq_grain (s := 10) (by decide)]
      have : (t : Int) * 2 ^ 10 ≤ (((t : Int) / 1000 + 1) * 2 ^ 10 - 1) * 1000 := by omega
      calc (t : Int) * (2 ^ 10 * grain 10) = t * 2 ^ 10 * grain 10 := by ring
        _ ≤ (((t : Int) / 1000 + 1) * 2 ^ 10 - 1) * 1000 * grain 10 := by gcongr
        _ = (((t : Int) / 1000 + 1) * (2 ^ 10 * grain 10) - grain 10) * 1000 := by ring
    calc (t : Int) * unitsPerOne * unitsPerOne
        ≤ (((t : Int) / 1000 + 1) * unitsPerOne - grain 10) * 1000 * unitsPerOne := by gcongr
      _ = (((t : Int) / 1000 + 1) * unitsPerOne - grain 10) * (1000 * unitsPerOne) := by ring

theorem Tracks.sub {x : Binary64} {m : Int} {window : Nat} (h : Tracks x m)
    (hm : m.natAbs ≤ 10 ^ 15) (hw : window ≤ 10 ^ 9) :
    Tracks (x - ofNat window) (m - 1000 * window) := by
  have hs : (m - 1000 * window) / 1000 = m / 1000 - window := by omega
  have hwin : (ofNat window).Is window := is_ofNat (by omega)
  unfold Tracks
  rw [hs]
  apply sub_within h hwin.within
  · exact representable_whole (by omega)
  · exact representable_below (by decide) (by omega)
  · exact Int.le_of_eq (Int.sub_mul ..)
  · exact Int.le_of_eq (by ring)

/-- The quotient by a width stays short of the next whole number by 2^-s, where the width has to
leave room for that and the bits of the quotient too. -/
theorem Tracks.floor_is {x : Binary64} {m : Int} {width : Nat} (h : Tracks x m)
    (hm : m.natAbs ≤ 10 ^ 15) (hpos : 1 ≤ width) (hs : s ≤ 20) (hroom : width * 2 ^ 10 ≤ 2 ^ s)
    (hbits : 2 ^ s ≤ width * 2 ^ 11) : (x / ofNat width).floor.Is (m / (1000 * width)) := by
  have hpow : 2 ^ s ≤ 2 ^ 20 := Nat.pow_le_pow_right (by decide) hs
  have hwidth : (ofNat width).Is width := is_ofNat (by omega)
  have hgrain := grain_pos s
  have hunits := unitsPerOne_cast_pos
  have hroom' : (width : Int) * 2 ^ 10 ≤ 2 ^ s := by exact_mod_cast hroom
  have hdiv : m / (1000 * width) = m / 1000 / width := by
    rw [Int.ediv_ediv_of_nonneg (by decide)]
  rw [hdiv]
  have hlow : m / 1000 / width * width ≤ m / 1000 := Int.ediv_mul_le _ (by omega)
  have hhigh : m / 1000 + 1 ≤ (m / 1000 / width + 1) * width :=
    Int.lt_ediv_add_one_mul_self _ (by omega)
  generalize m / 1000 / width = k at hlow hhigh ⊢
  have hk : k.natAbs * width ≤ 2 ^ 40 := by
    have hexpand : (k + 1) * width = k * width + width := by ring
    have habs : (k * width).natAbs ≤ 2 ^ 40 := by omega
    rwa [Int.natAbs_mul, Int.natAbs_natCast] at habs
  have hkb : k.natAbs ≤ 2 ^ 40 := Nat.le_trans (Nat.le_mul_of_pos_right _ hpos) hk
  have hfit : ((k + 1) * 2 ^ s - 1).natAbs ≤ 2 ^ 53 := by
    have hexpand : (k + 1) * 2 ^ s = k * (2 ^ s : Nat) + (2 ^ s : Nat) := by
      push_cast
      ring
    have hprod : (k * (2 ^ s : Nat)).natAbs ≤ 2 ^ 51 := by
      rw [Int.natAbs_mul, Int.natAbs_natCast]
      calc k.natAbs * 2 ^ s ≤ k.natAbs * (width * 2 ^ 11) := by gcongr
        _ = k.natAbs * width * 2 ^ 11 := by ring
        _ ≤ 2 ^ 40 * 2 ^ 11 := by gcongr
        _ = 2 ^ 51 := by decide
    omega
  have hq : (x / ofNat width).Within (k * unitsPerOne) ((k + 1) * unitsPerOne - grain s) := by
    apply div_within h.finite hwidth.1
    · rw [hwidth.2]
      exact Int.mul_pos (by omega) hunits
    · exact representable_whole (by omega)
    · exact representable_below (by omega) hfit
    · rw [hwidth.2]
      calc k * unitsPerOne * (width * unitsPerOne)
          = k * width * unitsPerOne * unitsPerOne := by ring
        _ ≤ m / 1000 * unitsPerOne * unitsPerOne := by gcongr
        _ ≤ x.units * unitsPerOne := by
          have := h.ge
          gcongr
    · rw [hwidth.2]
      have hx : x.units ≤ ((k + 1) * unitsPerOne - grain s) * width := by
        have h₁ : (m / 1000 + 1) * unitsPerOne ≤ (k + 1) * width * unitsPerOne := by gcongr
        have h₂ : (width : Int) * grain s ≤ grain 10 := by
          have hgrains : (2 : Int) ^ s * grain s = 2 ^ 10 * grain 10 := by
            rw [← unitsPerOne_eq_grain (by omega), ← unitsPerOne_eq_grain (by decide)]
          have : (width : Int) * 2 ^ 10 * grain s ≤ 2 ^ s * grain s := by gcongr
          linarith
        calc x.units ≤ (m / 1000 + 1) * unitsPerOne - grain 10 := h.le
          _ ≤ (k + 1) * width * unitsPerOne - width * grain s := by omega
          _ = ((k + 1) * unitsPerOne - grain s) * width := by ring
      calc x.units * unitsPerOne ≤ ((k + 1) * unitsPerOne - grain s) * width * unitsPerOne := by
            gcongr
        _ = ((k + 1) * unitsPerOne - grain s) * (width * unitsPerOne) := by ring
  apply Binary64.floor_is (by omega) hq.ge _ hq.finite
  have := hq.le
  omega

theorem Tracks.floor_wholeWidth {x : Binary64} {m : Int} (h : Tracks x m)
    (hm : m.natAbs ≤ 10 ^ 15) (window : Nat) :
    (x / ofNat (wholeWidth window)).floor.Is (wholeId window m) := by
  unfold wholeId wholeWidth
  split
  · exact h.floor_is hm (by decide) (s := 10) (by decide) (by decide) (by decide)
  · split
    · exact h.floor_is hm (by decide) (s := 14) (by decide) (by decide) (by decide)
    · split
      · exact h.floor_is hm (by decide) (s := 16) (by decide) (by decide) (by decide)
      · exact h.floor_is hm (by decide) (s := 20) (by decide) (by decide) (by decide)

theorem id_is {t window : Nat} (ht : t ≤ 10 ^ 14) (hw : window ≤ 10 ^ 9) :
    (id (ofNat t / 1000) (width (ofNat window))).Is (wholeId window t) := by
  rw [width_ofNat (by omega)]
  exact (tracks_seconds ht).floor_wholeWidth (by omega) window

theorem id_sub_is {t window : Nat} (ht : t ≤ 10 ^ 14) (hw : window ≤ 10 ^ 9) :
    (id (ofNat t / 1000 - ofNat window) (width (ofNat window))).Is
      (wholeId window (t - 1000 * window)) := by
  rw [width_ofNat (by omega)]
  exact ((tracks_seconds ht).sub (by omega) hw).floor_wholeWidth (by omega) window

end SlidingTally.Bucket
