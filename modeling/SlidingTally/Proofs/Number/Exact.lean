import SlidingTally.Proofs.Number.Sums

/-!
# Exact sums and whole parts

What a sum adds to a small integer is a double if the sum is exact, the difference of two numbers that
are close is exact, and a sum with more than half a gap is above the number that it starts from. A product
of positive numbers stays above what the exact one is above. `ceil_is` and
`trunc_is` give the whole number that a positive double is rounded to, and what is not positive stays
so when it is multiplied or rounded. Main statements: `representable_addend`, `sub_exact`,
`lt_add_of_half` and `max_one_of_nonpositive`.
-/

namespace SlidingTally.Binary64

-- ---------------------------------------------------------------------------
-- Whole parts
-- ---------------------------------------------------------------------------

theorem exists_floor (units : Int) :
    ∃ k : Int, k * unitsPerOne ≤ units ∧ units < (k + 1) * unitsPerOne :=
  ⟨units / unitsPerOne, Int.ediv_mul_le _ (Int.ne_of_gt unitsPerOne_cast_pos),
    Int.lt_ediv_add_one_mul_self _ unitsPerOne_cast_pos⟩

theorem exists_ceil (units : Int) :
    ∃ k : Int, units ≤ k * unitsPerOne ∧ (k - 1) * unitsPerOne < units := by
  obtain ⟨k, hle, hlt⟩ := exists_floor (-units)
  rw [Int.add_mul] at hlt
  refine ⟨-k, ?_, ?_⟩
  · rw [Int.neg_mul]
    omega
  · rw [Int.sub_mul, Int.neg_mul]
    omega

section
variable {x : Binary64} {k : Int}

theorem isNegative_of_pos (h : 0 < x.units) : x.isNegative = false := by
  rw [isNegative_of_units (Int.ne_of_gt h)]
  exact decide_eq_false (by omega)

theorem isFinite_of_units_pos (h : 0 < x.units) : x.isFinite = true := by
  cases x with
  | nan => cases h
  | infinite negative => cases h
  | finite negative magnitude => rfl

theorem toWhole_is_of_pos {round : Int → Int} (hpos : 0 < x.units)
    (hk : 0 ≤ k) (hsmall : k ≤ 2 ^ 53) (hround : round x.units = k) : (toWhole round x).Is k := by
  refine toWhole_is (by omega) (isFinite_of_units_pos hpos) hround ?_
  rw [isNegative_of_pos hpos]
  exact Int.natAbs_of_nonneg hk

theorem ceil_is (hpos : 0 < x.units) (hsmall : k ≤ 2 ^ 53)
    (hlt : (k - 1) * unitsPerOne < x.units) (hle : x.units ≤ k * unitsPerOne) : x.ceil.Is k := by
  have hone := unitsPerOne_cast_pos
  have hk : 0 ≤ k := by
    have hzero : 0 * (unitsPerOne : Int) < k * unitsPerOne := by omega
    exact Int.le_of_lt (Int.lt_of_mul_lt_mul_right hzero (Int.le_of_lt hone))
  refine toWhole_is_of_pos hpos hk hsmall ?_
  rw [Int.fdiv_eq_ediv_of_nonneg _ (Int.le_of_lt hone)]
  have hlow : -k ≤ -x.units / unitsPerOne :=
    (Int.le_ediv_iff_mul_le hone).mpr (by rw [Int.neg_mul]; omega)
  have hhigh : -x.units / unitsPerOne < -k + 1 :=
    (Int.ediv_lt_iff_lt_mul hone).mpr (by rw [Int.sub_mul] at hlt; rw [Int.add_mul, Int.neg_mul]; omega)
  omega

theorem trunc_is (hpos : 0 < x.units) (hsmall : k ≤ 2 ^ 53)
    (hle : k * unitsPerOne ≤ x.units) (hlt : x.units < (k + 1) * unitsPerOne) : x.trunc.Is k := by
  have hone := unitsPerOne_cast_pos
  have hk : x.units / unitsPerOne = k := by
    have hlow := (Int.le_ediv_iff_mul_le hone).mpr hle
    have hhigh := (Int.ediv_lt_iff_lt_mul hone).mpr hlt
    omega
  refine toWhole_is_of_pos hpos ?_ hsmall ?_
  · rw [← hk]
    exact Int.ediv_nonneg (Int.le_of_lt hpos) (Int.le_of_lt hone)
  · rw [Int.tdiv_eq_ediv_of_nonneg (Int.le_of_lt hpos), hk]

end

-- ---------------------------------------------------------------------------
-- Exact sums
-- ---------------------------------------------------------------------------

theorem significant_addend {c n exponent : Nat} (hsum : Significant (c * 2 ^ exponent + n))
    (hlt : c * 2 ^ exponent + n < 2 ^ (53 + exponent)) : Significant n := by
  by_cases hn : n = 0
  · rw [hn]
    exact Nat.dvd_zero _
  · have hlog : (c * 2 ^ exponent + n).log2 < 53 + exponent := (Nat.log2_lt (by omega)).mpr hlt
    have hbits : n.log2 ≤ (c * 2 ^ exponent + n).log2 := log2_le_log2 (Nat.le_add_left ..)
    -- The last bit of the sum is no higher than that of the integer.
    have hinteger : 2 ^ ((c * 2 ^ exponent + n).log2 - 52) ∣ c * 2 ^ exponent :=
      Nat.dvd_mul_left_of_dvd (Nat.pow_dvd_pow 2 (by omega)) c
    have haddend : 2 ^ ((c * 2 ^ exponent + n).log2 - 52) ∣ n := (Nat.dvd_add_right hinteger).mp hsum
    exact Nat.dvd_trans (Nat.pow_dvd_pow 2 (by omega)) haddend

/-- What an exact sum adds to an integer is a double itself, as long as the sum is below 2^53. -/
theorem representable_addend {c : Nat} {units : Int} (hnonneg : 0 ≤ units)
    (hsum : Representable (c * unitsPerOne + units))
    (hlt : c * unitsPerOne + units < 2 ^ 53 * unitsPerOne) : Representable units := by
  obtain ⟨n, rfl⟩ := Int.eq_ofNat_of_zero_le hnonneg
  obtain ⟨exponent, -, hone⟩ := unitsPerOne_eq
  have hnatAbs : ((c : Int) * unitsPerOne + n).natAbs = c * unitsPerOne + n := by
    rw [← Int.natCast_mul, ← Int.natCast_add, Int.natAbs_natCast]
  have hltNat : c * unitsPerOne + n < 2 ^ 53 * unitsPerOne := by exact_mod_cast hlt
  obtain ⟨hsignificant, hlimit⟩ := hsum
  rw [hnatAbs] at hsignificant hlimit
  rw [hone] at hsignificant hltNat
  rw [← Nat.pow_add] at hltNat
  exact ⟨significant_addend hsignificant hltNat, Nat.lt_of_le_of_lt (Nat.le_add_left ..) hlimit⟩

-- ---------------------------------------------------------------------------
-- Exact differences
-- ---------------------------------------------------------------------------

theorem significant_sub {m n : Nat} (hm : Significant m) (hn : Significant n) (hle : n ≤ m)
    (htwice : m ≤ 2 * n) : Significant (m - n) := by
  have hbits : n.log2 ≤ m.log2 := log2_le_log2 hle
  have hdvdm : 2 ^ (n.log2 - 52) ∣ m := Nat.dvd_trans (Nat.pow_dvd_pow 2 (by omega)) hm
  obtain ⟨c, hc⟩ := Nat.dvd_sub hdvdm hn
  -- The difference is no larger than the smaller number, and its last bit is no lower.
  have hn' : n < 2 ^ (n.log2 - 52 + 53) :=
    Nat.lt_of_lt_of_le Nat.lt_log2_self (Nat.pow_le_pow_right (by decide) (by omega))
  have hsmall : 2 ^ (n.log2 - 52) * c < 2 ^ (n.log2 - 52) * 2 ^ 53 := by
    rw [← hc, ← Nat.pow_add]
    omega
  rw [hc, Nat.mul_comm]
  exact significant_mul_pow (Nat.le_of_lt (Nat.lt_of_mul_lt_mul_left hsmall))

/-- The difference of two numbers of which neither is more than twice the other needs no rounding. -/
theorem sub_exact {x y : Binary64} (hx : x.isFinite = true) (hy : y.isFinite = true)
    (hnonneg : 0 ≤ y.units) (hle : y.units ≤ x.units) (htwice : x.units ≤ 2 * y.units) :
    (x - y).Within (x.units - y.units) (x.units - y.units) := by
  have hxs := x.representable_units
  have hys := y.representable_units
  have hdiff : (x.units - y.units).natAbs = x.units.natAbs - y.units.natAbs := by omega
  have hr : Representable (x.units - y.units) := by
    refine ⟨?_, ?_⟩
    · rw [hdiff]
      exact significant_sub hxs.1 hys.1 (by omega) (by omega)
    · exact Nat.lt_of_le_of_lt (by omega) hxs.2
  exact sub_within (within_units hx) (within_units hy) hr hr (Int.le_refl _) (Int.le_refl _)

-- ---------------------------------------------------------------------------
-- Sums that are not rounded back
-- ---------------------------------------------------------------------------

/-- Up to a power of two what is added and is more than half the last bit below it is not rounded
away. -/
theorem lt_add_of_units {x y : Binary64} (last : Nat) (hx : x.isFinite = true) (hy : y.isFinite = true)
    (hnonneg : 0 ≤ x.units) (hsmall : x.units < (2 ^ (53 + last) : Nat))
    (hhalf : (2 ^ last : Nat) < 2 * y.units) : x.lt (x + y) = true := by
  have hpos := Nat.two_pow_pos last
  obtain ⟨hsignificant, hfits⟩ := x.representable_units
  obtain ⟨m, hm⟩ := Int.eq_ofNat_of_zero_le hnonneg
  obtain ⟨u, hu⟩ := Int.eq_ofNat_of_zero_le (show 0 ≤ y.units by omega)
  rw [hm, Int.natAbs_natCast] at hsignificant hfits
  have hup : m < Magnitude.roundedUnits (m + u) 1 :=
    Magnitude.lt_roundedUnits_add last hsignificant (by omega) (by omega)
  have hsum : (x.units + y.units).natAbs = m + u := by omega
  rw [add_of_pos hx hy (by omega), hsum]
  refine lt_iff.mpr ⟨isNaN_of_isFinite hx, (ofRatio_false_boundedBelow ..).isNaN, ?_⟩
  rw [rank_of_isFinite hx, rank_ofRatio, hm]
  omega

/-- Where the gaps between doubles are no more than a power of two, a sum with more than half of it is
above the number that it starts from. -/
theorem lt_add_of_half {x y : Binary64} (exponent : Nat) (hexponent : exponent ≤ 800)
    (hx : zero.le x = true) (hsmall : x.lt (ofNat (2 ^ (53 + exponent))) = true)
    (hy : y.isNaN = false) (hhalf : 2 ^ exponent * unitsPerOne < 2 * y.rank) :
    x.lt (x + y) = true := by
  have hlimit : (ofNat (2 ^ (53 + exponent))).Is (2 ^ (53 + exponent) : Nat) := is_two_pow (by omega)
  have hbelow := (ofNat (2 ^ (53 + exponent))).natAbs_units_lt
  obtain ⟨-, -, hlt⟩ := lt_iff.mp hsmall
  rw [rank_of_isFinite hlimit.1] at hlt
  have hgap := Int.mul_pos (Int.pow_pos (n := 2) (m := exponent) (by decide)) unitsPerOne_cast_pos
  have hnonneg : zero.le y = true := le_iff.mpr ⟨rfl, hy, by rw [rank_zero]; omega⟩
  rcases nonneg_cases hx with rfl | ⟨hxf, hxu⟩
  · have hrank : (unitsLimit : Int) < (ofNat (2 ^ (53 + exponent))).units := hlt
    omega
  rw [rank_of_isFinite hxf] at hlt
  rcases nonneg_cases hnonneg with rfl | ⟨hyf, -⟩
  · obtain ⟨negative, magnitude, rfl⟩ := (within_units hxf).cases
    refine lt_iff.mpr ⟨rfl, rfl, ?_⟩
    show (finite negative magnitude).units < unitsLimit
    omega
  · obtain ⟨bits, -, hone⟩ := unitsPerOne_eq
    rw [rank_of_isFinite hyf, hone] at hhalf
    rw [hlimit.2, hone] at hlt
    refine lt_add_of_units (exponent + bits) hxf hyf hxu ?_ ?_
    · rw [← Nat.add_assoc, Nat.pow_add]
      exact_mod_cast hlt
    · rw [Nat.pow_add]
      exact_mod_cast hhalf

theorem lt_add_of_one_le {x y : Binary64} (hx : zero.le x = true)
    (hsmall : x.lt (ofNat (2 ^ 53)) = true) (hy : (1 : Binary64).le y = true) :
    x.lt (x + y) = true := by
  have hone := unitsPerOne_cast_pos
  obtain ⟨-, hnan, hrank⟩ := le_iff.mp hy
  rw [rank_of_isFinite one_is.1, one_is.2] at hrank
  exact lt_add_of_half 0 (by decide) hx hsmall hnan (by omega)

-- ---------------------------------------------------------------------------
-- Products
-- ---------------------------------------------------------------------------

/-- Rounding keeps a product from below a number that needs no rounding, also when it becomes
infinite. -/
theorem le_rank_mul {x y : Binary64} {m : Nat} (hx : 0 < x.units) (hy : 0 < y.units)
    (hm : Significant m) (hlt : m < unitsLimit) (h : m * unitsPerOne ≤ x.units * y.units) :
    (x * y).isNaN = false ∧ m ≤ (x * y).rank := by
  obtain ⟨nx, mx, rfl⟩ := (within_units (isFinite_of_units_pos hx)).cases
  obtain ⟨ny, my, rfl⟩ := (within_units (isFinite_of_units_pos hy)).cases
  have hnx : nx = false := isNegative_of_pos hx
  have hny : ny = false := isNegative_of_pos hy
  subst hnx hny
  exact le_ofRatio unitsPerOne_pos hm hlt (Int.ofNat_le.mp h)

-- ---------------------------------------------------------------------------
-- What is not positive
-- ---------------------------------------------------------------------------

def Nonpositive (x : Binary64) : Prop := x.isNaN = false ∧ x.rank ≤ 0

theorem nonpositive_ofRatio {negative : Bool} {n d : Nat} (hd : 0 < d) (h : negative = true ∨ n = 0) :
    (ofRatio negative n d).Nonpositive := by
  have hpos := unitsLimit_pos
  obtain rfl | rfl := h
  · unfold ofRatio
    split
    · exact ⟨rfl, by rw [rank_of_isFinite rfl, units_finite, signed, if_pos rfl]; omega⟩
    · exact ⟨rfl, show -(unitsLimit : Int) ≤ 0 by omega⟩
  · have hwithin : (ofRatio negative 0 d).Within 0 0 :=
      ofRatio_within hd representable_zero representable_zero (by cases negative <;> simp [signed])
        (by cases negative <;> simp [signed])
    exact ⟨isNaN_of_isFinite hwithin.finite, by rw [rank_of_isFinite hwithin.finite]; exact hwithin.le⟩

theorem Nonpositive.cases {negative : Bool} {magnitude : Magnitude}
    (h : (finite negative magnitude).Nonpositive) : negative = true ∨ magnitude.units = 0 := by
  have hrank := h.2
  rw [rank_of_isFinite rfl, units_finite] at hrank
  cases negative with
  | true => exact .inl rfl
  | false => exact .inr (by simpa [signed] using hrank)

theorem Nonpositive.mul {x y : Binary64} (hx : x.Nonpositive) (hfinite : x.isFinite = true)
    (hy : y.isFinite = true) (hsign : y.isNegative = false) : (x * y).Nonpositive := by
  obtain ⟨negative, magnitude, rfl⟩ := (within_units hfinite).cases
  obtain ⟨negative', magnitude', rfl⟩ := (within_units hy).cases
  have hpositive : negative' = false := hsign
  subst hpositive
  refine nonpositive_ofRatio unitsPerOne_pos ?_
  obtain rfl | hzero := hx.cases
  · exact .inl rfl
  · exact .inr (by rw [hzero, Nat.zero_mul])

theorem Nonpositive.ceil {x : Binary64} (hx : x.Nonpositive) : x.ceil.Nonpositive := by
  cases x with
  | nan => cases hx.1
  | infinite negative => exact hx
  | finite negative magnitude =>
    refine nonpositive_ofRatio Nat.one_pos ?_
    obtain rfl | hzero := hx.cases
    · exact .inl rfl
    · have hunits : (finite negative magnitude).units = 0 := by
        rw [units_finite, hzero]
        cases negative <;> rfl
      simp [hunits]

theorem nonpositive_iff_le {x : Binary64} : x.Nonpositive ↔ x.le zero = true := by
  rw [le_iff]
  exact ⟨fun h => ⟨h.1, rfl, h.2⟩, fun h => ⟨h.1, h.2.2⟩⟩

theorem Nonpositive.lt_eq_false {x : Binary64} (hx : x.Nonpositive) : zero.lt x = false := by
  rw [← Bool.not_eq_true, lt_iff]
  rintro ⟨-, -, hlt⟩
  exact absurd hx.2 (Int.not_le.mpr hlt)

theorem max_one_of_nonpositive {x : Binary64} (hx : x.Nonpositive) : Binary64.max 1 x = 1 := by
  have hrank : (1 : Binary64).rank = unitsPerOne := by
    rw [rank_of_isFinite one_is.1, one_is.2, Int.one_mul]
  have hbelow : x.rank < (1 : Binary64).rank := by
    have := unitsPerOne_cast_pos
    have := hx.2
    omega
  have hnan := isNaN_of_isFinite one_is.1
  have hlt : x.lt 1 = true := lt_iff.mpr ⟨hx.1, hnan, hbelow⟩
  have hnotlt : (1 : Binary64).lt x = false := by
    rw [← Bool.not_eq_true, lt_iff]
    omega
  simp [Binary64.max, hnan, hx.1, hlt, hnotlt]

end SlidingTally.Binary64
