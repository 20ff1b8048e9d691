import SlidingTally.Proofs.Number.Whole

/-!
# Shortest decimals

The decimal that a magnitude is written as rounds back to it: what the search finds does, and so does
the exact value, which is there for when it finds nothing. Zeros at the end of a coefficient make no
difference. Main statement: `toBinary64_shortest`.
-/

namespace SlidingTally

namespace Binary64

theorem ofRatio_mul_mul (negative : Bool) (n d : Nat) {k : Nat} (hk : 0 < k) :
    ofRatio negative (n * k) (d * k) = ofRatio negative n d := by
  simp only [ofRatio, Magnitude.ofRatio?, Magnitude.roundedUnits_mul_mul n d hk]

theorem ofRatio_units (negative : Bool) (magnitude : Magnitude) :
    ofRatio negative magnitude.units 1 = .finite negative magnitude := by
  simp only [ofRatio, Magnitude.ofRatio?, Magnitude.roundedUnits_of_significant magnitude.significant,
    dif_pos magnitude.units_lt]

end Binary64

namespace Decimal

open Binary64

-- ---------------------------------------------------------------------------
-- Factors of ten
-- ---------------------------------------------------------------------------

section
variable {c : Nat} {e : Int} {d : Decimal}

theorem digitCount_mul_ten (hc : 0 < c) : digitCount (c * 10) = digitCount c + 1 := by
  rw [digitCount, Nat.toDigits_of_base_le (by decide) (by omega),
    Nat.mul_div_cancel _ (by decide), List.length_append]
  rfl

theorem toBinary64_mul_ten (negative : Bool) (c : Nat) (e : Int) :
    toBinary64 negative ⟨c * 10, e⟩ = toBinary64 negative ⟨c, e + 1⟩ := by
  by_cases hc : c = 0
  · simp [toBinary64, hc]
  · have hplaces : (digitCount (c * 10) : Int) + e = digitCount c + (e + 1) := by
      rw [digitCount_mul_ten (Nat.pos_of_ne_zero hc)]
      omega
    simp only [toBinary64, hplaces, if_neg hc, if_neg (show c * 10 ≠ 0 by omega)]
    split
    · rfl
    · split
      · rfl
      · rcases Int.lt_trichotomy e (-1) with hlt | rfl | hgt
        · obtain ⟨n, hn⟩ := Int.eq_ofNat_of_zero_le (a := -(e + 1)) (by omega)
          rw [if_neg (by omega), if_neg (by omega), show (-e).toNat = n + 1 by omega,
            show (-(e + 1)).toNat = n by omega, Nat.pow_eq, Nat.pow_eq, Nat.pow_succ,
            Nat.mul_right_comm, ofRatio_mul_mul _ _ _ (by decide)]
        · rw [if_neg (by decide), if_pos (by decide), Nat.mul_right_comm]
          have hpow : c * Nat.pow 10 (-1 + 1 : Int).toNat * unitsPerOne = c * unitsPerOne := by
            show c * 1 * unitsPerOne = _
            rw [Nat.mul_one]
          rw [hpow]
          exact ofRatio_mul_mul negative (c * unitsPerOne) 1 (k := 10) (by decide)
        · obtain ⟨n, rfl⟩ := Int.eq_ofNat_of_zero_le (a := e) (by omega)
          rw [if_pos (by omega), if_pos (by omega), Int.toNat_natCast,
            show ((n : Int) + 1).toNat = n + 1 by omega, Nat.pow_eq, Nat.pow_eq, Nat.pow_succ']
          ring_nf

theorem toBinary64_mul_pow (negative : Bool) (c n : Nat) (e : Int) :
    toBinary64 negative ⟨c * 10 ^ n, e⟩ = toBinary64 negative ⟨c, e + n⟩ := by
  induction n generalizing e with
  | zero => simp
  | succ n ih =>
    rw [Nat.pow_succ, ← Nat.mul_assoc, toBinary64_mul_ten, ih]
    congr 2
    push_cast
    ring

theorem toBinary64_normalizedWith (negative : Bool) (fuel : Nat) (d : Decimal) :
    (normalizedWith fuel d).toBinary64 negative = d.toBinary64 negative := by
  induction fuel generalizing d with
  | zero => rfl
  | succ fuel ih =>
    rw [normalizedWith]
    split
    · next h =>
      rw [ih, ← toBinary64_mul_ten, Nat.div_mul_cancel (Nat.dvd_of_mod_eq_zero h.2)]
    · rfl

end

theorem toBinary64_true (d : Decimal) : d.toBinary64 true = (d.toBinary64 false).neg := by
  unfold toBinary64
  dsimp only
  split
  · rfl
  · split
    · rfl
    · split
      · rfl
      · split
        · exact ofRatio_true _ _
        · exact ofRatio_true _ _

-- ---------------------------------------------------------------------------
-- The exact decimal
-- ---------------------------------------------------------------------------

theorem digitCount_le_iff {n k : Nat} (hk : 0 < k) : digitCount n ≤ k ↔ n < 10 ^ k :=
  Nat.length_toDigits_le_iff (by decide) hk

theorem exact_eq (magnitude : Magnitude) : ∃ exponent, exponent = 1074 ∧
    exact magnitude = ⟨magnitude.units * Nat.pow 5 exponent, -exponent⟩ :=
  ⟨1074, rfl, rfl⟩

/-- The exact decimal has few enough places not to be infinite, and enough not to be zero. -/
theorem digitCount_exact (magnitude : Magnitude) (hne : magnitude.units ≠ 0) {exponent : Nat}
    (hexponent : exponent = 1074) : 750 < digitCount (magnitude.units * 5 ^ exponent) ∧
      digitCount (magnitude.units * 5 ^ exponent) ≤ 309 + exponent := by
  constructor
  · have hlow : 10 ^ 750 ≤ 5 ^ exponent := by
      rw [hexponent]
      decide +kernel
    rw [← Nat.not_le, digitCount_le_iff (by decide), Nat.not_lt]
    exact Nat.le_trans hlow (Nat.le_mul_of_pos_left _ (Nat.pos_of_ne_zero hne))
  · obtain ⟨last, hlast, hlimit⟩ := unitsLimit_eq
    have hbits : 53 + last = 1024 + exponent := by omega
    rw [digitCount_le_iff (by omega)]
    calc magnitude.units * 5 ^ exponent < 2 ^ (53 + last) * 5 ^ exponent :=
          Nat.mul_lt_mul_of_pos_right (hlimit ▸ magnitude.units_lt) (Nat.pow_pos (by decide))
      _ = 2 ^ 1024 * (2 ^ exponent * 5 ^ exponent) := by
          rw [← Nat.mul_assoc, ← Nat.pow_add, hbits]
      _ ≤ 10 ^ 309 * 10 ^ exponent := by
          have hhigh : 2 ^ 1024 ≤ 10 ^ 309 := by decide +kernel
          rw [← Nat.mul_pow]
          exact Nat.mul_le_mul_right _ hhigh
      _ = 10 ^ (309 + exponent) := by rw [Nat.pow_add]

theorem roundsTo_exact (magnitude : Magnitude) : (exact magnitude).RoundsTo magnitude := by
  obtain ⟨exponent, hexponent, heq⟩ := exact_eq magnitude
  rw [RoundsTo, heq, Nat.pow_eq, toBinary64]
  dsimp only
  by_cases hzero : magnitude.units = 0
  · have hmagnitude : magnitude = .zero := Magnitude.ext hzero
    rw [hmagnitude]
    exact if_pos (Nat.zero_mul _)
  · obtain ⟨hmany, hfew⟩ := digitCount_exact magnitude hzero hexponent
    have hcoefficient : magnitude.units * 5 ^ exponent ≠ 0 :=
      Nat.mul_ne_zero hzero (Nat.ne_of_gt (Nat.pow_pos (by decide)))
    obtain ⟨one, hequal, hone⟩ := unitsPerOne_eq
    have hvalue : magnitude.units * 5 ^ exponent * unitsPerOne = magnitude.units * 10 ^ exponent := by
      rw [hone, hequal, ← hexponent, Nat.mul_assoc, ← Nat.mul_pow]
    have hround := ofRatio_mul_mul false magnitude.units 1 (k := 10 ^ exponent)
      (Nat.pow_pos (by decide))
    rw [Nat.one_mul] at hround
    rw [if_neg hcoefficient, if_neg (by omega), if_neg (by omega), if_neg (by omega), Int.neg_neg,
      Int.toNat_natCast, Nat.pow_eq, hvalue, hround, ofRatio_units]

theorem toBinary64_shortest (negative : Bool) (magnitude : Magnitude) :
    (shortest magnitude).toBinary64 negative = .finite negative magnitude := by
  have hrounds : ((search magnitude 1 17).getD (exact magnitude)).RoundsTo magnitude := by
    cases hsearch : search magnitude 1 17 with
    | none => exact roundsTo_exact magnitude
    | some d => exact roundsTo_shortest_of_search hsearch
  have hfalse : (shortest magnitude).toBinary64 false = .finite false magnitude :=
    (toBinary64_normalizedWith false _ _).trans hrounds
  cases negative with
  | false => exact hfalse
  | true =>
    rw [toBinary64_true, hfalse]
    rfl

end Decimal

end SlidingTally
