/-!
# Magnitudes of finite doubles

A finite double is a whole number of units of 2^-1074. `Magnitude` holds that number with
the proof that 53 significant bits suffice for it. `Magnitude.ofRatio?` rounds a quotient
of naturals to the nearest magnitude, a tie to the even neighbour, and refuses what lies
beyond the largest double. Main statements: `significant_mul_pow` is why the rounded
number needs no more than 53 bits, and `nearest_mul` says that whole numbers are kept.
-/

namespace SlidingTally

@[irreducible] def unitsPerOne : Nat := Nat.pow 2 1074

/-- The first power of two that is too large for a double, in units. -/
@[irreducible] def unitsLimit : Nat := Nat.pow 2 2098

theorem unitsPerOne_pos : 0 < unitsPerOne := by
  unfold unitsPerOne
  generalize 1074 = exponent
  exact Nat.two_pow_pos exponent

theorem unitsLimit_pos : 0 < unitsLimit := by
  unfold unitsLimit
  generalize 2098 = exponent
  exact Nat.two_pow_pos exponent

-- ---------------------------------------------------------------------------
-- The nearest whole number
-- ---------------------------------------------------------------------------

/-- The whole number nearest to a quotient; a half goes to the even neighbour. -/
def nearest (numerator denominator : Nat) : Nat :=
  let quotient := numerator / denominator
  let twice := 2 * (numerator % denominator)
  if twice < denominator then quotient
  else if denominator < twice then quotient + 1
  else quotient + quotient % 2

theorem nearest_le (numerator denominator : Nat) :
    nearest numerator denominator ≤ numerator / denominator + 1 := by
  unfold nearest
  simp only
  split
  · omega
  · split <;> omega

theorem le_nearest (numerator denominator : Nat) :
    numerator / denominator ≤ nearest numerator denominator := by
  unfold nearest
  simp only
  split
  · omega
  · split <;> omega

theorem nearest_mul (whole denominator : Nat) (h : 0 < denominator) :
    nearest (whole * denominator) denominator = whole := by
  simp [nearest, Nat.mul_div_cancel _ h, h]

-- ---------------------------------------------------------------------------
-- Significant bits
-- ---------------------------------------------------------------------------

/-- At most 53 significant bits: all below the leading 53 are zero. -/
def Significant (units : Nat) : Prop := Nat.pow 2 (units.log2 - 52) ∣ units

instance (units : Nat) : Decidable (Significant units) :=
  inferInstanceAs (Decidable (_ ∣ _))

theorem significant_mul_pow {lead shift : Nat} (h : lead ≤ Nat.pow 2 53) :
    Significant (lead * Nat.pow 2 shift) := by
  rw [Nat.pow_eq] at h ⊢
  by_cases hz : lead = 0
  · subst hz
    simp [Significant]
  by_cases ht : lead = 2 ^ 53
  · subst ht
    rw [Significant, Nat.pow_eq, ← Nat.pow_add, Nat.log2_two_pow]
    exact Nat.pow_dvd_pow 2 (by omega)
  · have hp : 0 < 2 ^ shift := Nat.two_pow_pos shift
    have hlt : lead * 2 ^ shift < 2 ^ (53 + shift) := by
      rw [Nat.pow_add]
      exact Nat.mul_lt_mul_of_pos_right (by omega) hp
    have hne : lead * 2 ^ shift ≠ 0 := Nat.mul_ne_zero hz (Nat.ne_of_gt hp)
    have hlog : (lead * 2 ^ shift).log2 < 53 + shift := (Nat.log2_lt hne).mpr hlt
    exact Nat.dvd_trans (Nat.pow_dvd_pow 2 (by omega)) (Nat.dvd_mul_left _ _)

-- ---------------------------------------------------------------------------
-- Magnitudes
-- ---------------------------------------------------------------------------

structure Magnitude where
  units : Nat
  significant : Significant units
  units_lt : units < unitsLimit
deriving DecidableEq

namespace Magnitude

theorem ext {a b : Magnitude} (h : a.units = b.units) : a = b := by
  cases a; cases b; cases h; rfl

def zero : Magnitude := ⟨0, Nat.dvd_zero _, unitsLimit_pos⟩

def lastBit (numerator denominator : Nat) : Nat :=
  (numerator / denominator).log2 - 52

/-- A quotient rounded to 53 significant bits, in units and without an upper limit. -/
def roundedUnits (numerator denominator : Nat) : Nat :=
  let place := Nat.pow 2 (lastBit numerator denominator)
  nearest numerator (denominator * place) * place

theorem significant_roundedUnits (numerator denominator : Nat) :
    Significant (roundedUnits numerator denominator) := by
  apply significant_mul_pow
  refine Nat.le_trans (nearest_le _ _) ?_
  have hlog : numerator / denominator < 2 ^ (53 + lastBit numerator denominator) := by
    by_cases hz : numerator / denominator = 0
    · rw [hz]
      exact Nat.two_pow_pos _
    · apply (Nat.log2_lt hz).mp
      unfold lastBit
      omega
  rw [Nat.pow_eq, Nat.pow_eq, ← Nat.div_div_eq_div_mul]
  have : numerator / denominator / 2 ^ lastBit numerator denominator < 2 ^ 53 := by
    apply Nat.div_lt_of_lt_mul
    rw [← Nat.pow_add, Nat.add_comm]
    exact hlog
  omega

/-- The magnitude nearest to a quotient given in units; a tie goes to the magnitude whose
last bit is zero, and there is none beyond the largest double. -/
def ofRatio? (numerator denominator : Nat) : Option Magnitude :=
  if h : roundedUnits numerator denominator < unitsLimit then
    some ⟨roundedUnits numerator denominator, significant_roundedUnits _ _, h⟩
  else
    none

end Magnitude

end SlidingTally
