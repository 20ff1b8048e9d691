import SlidingTally.Proofs.Number.Whole
import SlidingTally.Number.Decimal

/-!
# Overflow

A whole number is rounded to a finite double exactly below `wholeLimit`, which is halfway between the
largest double and the power of two above it, and one that is written out in full is the double
nearest to it. Main statements: `roundedUnits_lt_iff`, `isFinite_whole` and `toBinary64_whole`.
-/

namespace SlidingTally

-- ---------------------------------------------------------------------------
-- Halfway to the next power of two
-- ---------------------------------------------------------------------------

namespace Magnitude

/-- The tie between the largest number of 53 bits and the next power of two goes to the power. -/
theorem roundedUnits_halfway (last : Nat) :
    roundedUnits ((2 ^ 54 - 1) * 2 ^ last) 1 = 2 ^ (54 + last) := by
  have hpos : 0 < 2 ^ last := Nat.two_pow_pos last
  have hlog : ((2 ^ 54 - 1) * 2 ^ last).log2 - 52 = last + 1 := by
    rw [log2_mul_two_pow (by decide)]
    have : (2 ^ 54 - 1).log2 = 53 := by decide
    omega
  have hsplit : (2 ^ 54 - 1) * 2 ^ last = 2 ^ (last + 1) * (2 ^ 53 - 1) + 2 ^ last := by
    rw [Nat.pow_succ]
    omega
  have hhalf : 2 ^ last < 2 ^ (last + 1) := Nat.pow_lt_pow_succ (by decide)
  have hquotient : (2 ^ 54 - 1) * 2 ^ last / 2 ^ (last + 1) = 2 ^ 53 - 1 := by
    rw [hsplit, Nat.mul_add_div (Nat.two_pow_pos _), Nat.div_eq_of_lt hhalf, Nat.add_zero]
  have hremainder : (2 ^ 54 - 1) * 2 ^ last % 2 ^ (last + 1) = 2 ^ last := by
    rw [hsplit, Nat.mul_add_mod, Nat.mod_eq_of_lt hhalf]
  have htie : 2 * 2 ^ last = 2 ^ (last + 1) := (Nat.pow_succ').symm
  simp only [roundedUnits_one hlog, nearest, hquotient, hremainder, htie, Nat.lt_irrefl, if_false]
  rw [show 54 + last = 53 + (last + 1) by omega, Nat.pow_add 2 53]
  rfl

theorem roundedUnits_lt_iff {n last : Nat} :
    roundedUnits n 1 < 2 ^ (54 + last) ↔ n < (2 ^ 54 - 1) * 2 ^ last := by
  constructor
  · intro hlt
    by_contra hge
    have hmono := roundedUnits_mono Nat.one_pos (Nat.le_of_not_lt hge)
    rw [roundedUnits_halfway] at hmono
    omega
  · intro hlt
    have hpos : 0 < 2 ^ last := Nat.two_pow_pos last
    have hlargest : Significant ((2 ^ 53 - 1) * 2 ^ (last + 1)) := significant_mul_pow (by decide)
    have hbelow : (2 ^ 53 - 1) * 2 ^ (last + 1) < 2 ^ (53 + (last + 1)) := by
      rw [Nat.pow_add 2 53]
      exact Nat.mul_lt_mul_of_pos_right (by decide) (Nat.two_pow_pos _)
    have hsmall : 2 * (2 ^ last - 1) < 2 ^ (last + 1) := by
      rw [Nat.pow_succ]
      omega
    have hround := roundedUnits_add_lt hlargest hbelow hsmall
    rw [show 53 + (last + 1) = 54 + last by omega] at hround
    refine Nat.lt_of_le_of_lt (roundedUnits_mono Nat.one_pos ?_) hround
    rw [Nat.pow_succ]
    omega

end Magnitude

-- ---------------------------------------------------------------------------
-- Whole numbers
-- ---------------------------------------------------------------------------

namespace Binary64

@[irreducible] def wholeLimit : Nat := Nat.pow 2 1024 - Nat.pow 2 970

theorem wholeLimit_mul_unitsPerOne :
    ∃ last, unitsLimit = 2 ^ (54 + last) ∧ wholeLimit * unitsPerOne = (2 ^ 54 - 1) * 2 ^ last := by
  have hlimit : wholeLimit = (2 ^ 54 - 1) * 2 ^ 970 := by
    unfold wholeLimit
    decide +kernel
  obtain ⟨exponent, hexponent, hone⟩ := unitsPerOne_eq
  obtain ⟨last, hlast, htop⟩ := unitsLimit_eq
  refine ⟨970 + exponent, ?_, ?_⟩
  · rw [htop]
    congr 1
    omega
  · rw [hlimit, hone, Nat.pow_add 2 970, Nat.mul_assoc]

theorem isFinite_ofRatio {negative : Bool} {n d : Nat} :
    (ofRatio negative n d).isFinite = true ↔ Magnitude.roundedUnits n d < unitsLimit := by
  constructor
  · exact roundedUnits_lt
  · intro h
    simp [ofRatio, Magnitude.ofRatio?, h, isFinite]

theorem ofRatio_of_not_isFinite {negative : Bool} {n d : Nat}
    (h : ¬(ofRatio negative n d).isFinite = true) : ofRatio negative n d = .infinite negative := by
  rw [isFinite_ofRatio] at h
  simp [ofRatio, Magnitude.ofRatio?, h]

theorem isFinite_whole {negative : Bool} {n : Nat} :
    (ofRatio negative (n * unitsPerOne) 1).isFinite = true ↔ n < wholeLimit := by
  obtain ⟨last, hlimit, hwhole⟩ := wholeLimit_mul_unitsPerOne
  rw [isFinite_ofRatio, hlimit, Magnitude.roundedUnits_lt_iff, ← hwhole,
    Nat.mul_lt_mul_right unitsPerOne_pos]

theorem isInteger_whole {negative : Bool} {n : Nat} :
    (ofRatio negative (n * unitsPerOne) 1).isInteger = true ↔ n < wholeLimit := by
  have hfinite : (ofRatio negative (n * unitsPerOne) 1).isFinite = true ↔ n < wholeLimit :=
    isFinite_whole
  rw [← hfinite]
  constructor
  · intro h
    obtain ⟨k, hfinite, -⟩ := exists_is h
    exact hfinite
  · intro h
    exact isInteger_ofRatio (Nat.dvd_mul_left _ _) (roundedUnits_lt h)

end Binary64

namespace Decimal

theorem pow_le_of_digitCount {n places : Nat} (hpos : 0 < places) (h : places < digitCount n) :
    Nat.pow 10 places ≤ n := by
  by_contra hlt
  have hcount : digitCount n ≤ places :=
    (Nat.length_toDigits_le_iff (by decide) hpos).mpr (Nat.lt_of_not_le hlt)
  omega

theorem wholeLimit_le_of_digitCount {n : Nat} (h : 310 ≤ digitCount n) : Binary64.wholeLimit ≤ n := by
  obtain ⟨places, hplaces, hten⟩ : ∃ places, places = 309 ∧ Binary64.wholeLimit ≤ Nat.pow 10 places := by
    unfold Binary64.wholeLimit
    exact ⟨309, rfl, by decide +kernel⟩
  exact Nat.le_trans hten (pow_le_of_digitCount (by omega) (by omega))

/-- A whole number written out is rounded once, however many digits it has. -/
theorem toBinary64_whole (negative : Bool) (n : Nat) :
    toBinary64 negative ⟨n, 0⟩ = .ofRatio negative (n * unitsPerOne) 1 := by
  unfold toBinary64
  dsimp only
  split
  · rename_i hzero
    rw [hzero, Nat.zero_mul]
    revert negative
    decide +kernel
  · split
    · rename_i hplaces
      have hlimit : Binary64.wholeLimit ≤ n := wholeLimit_le_of_digitCount (by omega)
      refine (Binary64.ofRatio_of_not_isFinite ?_).symm
      rw [Binary64.isFinite_whole]
      omega
    · rw [if_neg (by omega), if_pos (by decide)]
      show Binary64.ofRatio negative (n * 1 * unitsPerOne) 1 = _
      rw [Nat.mul_one]

end Decimal

end SlidingTally
