import SlidingTally.Number.Numeral
import SlidingTally.Proofs.Number.Order

/-!
# Whole doubles

`x.Is k` says that a double is the integer `k`; of the two zeros either is. Up to 2^53 sums and
products of whole doubles are exact, they compare as their integers do and are written as
these are. Main statements: `Is.add`, `ofInt_add`, `isInteger_add_one`, `toWhole_is` and
`text_of_is`.
-/

namespace SlidingTally.Binary64

theorem unitsPerOne_cast_pos : (0 : Int) < unitsPerOne := by
  exact_mod_cast unitsPerOne_pos

theorem unitsPerOne_eq : ∃ exponent, exponent = 1074 ∧ unitsPerOne = 2 ^ exponent := by
  unfold unitsPerOne
  generalize 1074 = exponent
  exact ⟨exponent, rfl, rfl⟩

theorem unitsLimit_eq : ∃ last, last = 2045 ∧ unitsLimit = 2 ^ (53 + last) := by
  unfold unitsLimit
  refine ⟨2045, rfl, ?_⟩
  have hexponent : 53 + 2045 = 2098 := by decide
  generalize 2098 = exponent at hexponent ⊢
  rw [hexponent, Nat.pow_eq]

theorem representable_whole {k : Int} (h : k.natAbs ≤ 2 ^ 53) :
    Representable (k * unitsPerOne) := by
  obtain ⟨exponent, he, hu⟩ := unitsPerOne_eq
  rw [hu]
  exact representable_mul_pow h (by omega)

def Is (x : Binary64) (k : Int) : Prop := x.isFinite = true ∧ x.units = k * unitsPerOne

theorem Is.within {x : Binary64} (h : x.Is k) :
    x.Within (k * unitsPerOne) (k * unitsPerOne) :=
  ⟨h.1, Int.le_of_eq h.2.symm, Int.le_of_eq h.2⟩

theorem Within.is {x : Binary64} (h : x.Within (k * unitsPerOne) (k * unitsPerOne)) : x.Is k :=
  ⟨h.finite, Int.le_antisymm h.le h.ge⟩

theorem Is.neg {x : Binary64} (h : x.Is k) : x.neg.Is (-k) := by
  have hwithin := h.within.neg
  rw [← Int.neg_mul] at hwithin
  exact hwithin.is

theorem Is.eq {x : Binary64} (h : x.Is k) (h' : x.Is l) : k = l := by
  have hu := h.2.symm.trans h'.2
  exact Int.eq_of_mul_eq_mul_right (Int.ne_of_gt unitsPerOne_cast_pos) hu

-- ---------------------------------------------------------------------------
-- Exact arithmetic
-- ---------------------------------------------------------------------------

theorem is_ofInt_of_representable {k : Int} (hr : Representable (k * unitsPerOne)) :
    (ofInt k).Is k := by
  have hn : signed (k < 0) (k.natAbs * unitsPerOne) = k * unitsPerOne := by
    by_cases hk : k < 0
    · simp only [signed, hk, decide_true, reduceIte, Int.natCast_mul]
      rw [Int.ofNat_natAbs_of_nonpos (by omega), Int.neg_mul, Int.neg_neg]
    · simp only [signed, hk, decide_false, Bool.false_eq_true, reduceIte, Int.natCast_mul]
      rw [Int.natAbs_of_nonneg (by omega)]
  apply Within.is
  apply ofRatio_within Nat.one_pos hr hr
  · rw [hn]
    exact Int.le_of_eq (Int.mul_one _)
  · rw [hn]
    exact Int.le_of_eq (Int.mul_one _).symm

theorem is_ofInt {k : Int} (h : k.natAbs ≤ 2 ^ 53) : (ofInt k).Is k :=
  is_ofInt_of_representable (representable_whole h)

theorem is_ofNat {n : Nat} (h : n ≤ 2 ^ 53) : (ofNat n).Is n := is_ofInt (by simpa using h)

theorem is_two_pow {exponent : Nat} (h : exponent ≤ 900) :
    (ofNat (2 ^ exponent)).Is (2 ^ exponent : Nat) := by
  obtain ⟨bits, hbits, hone⟩ := unitsPerOne_eq
  have hpower : Representable (1 * (2 ^ (exponent + bits) : Nat)) :=
    representable_mul_pow (by decide) (by omega)
  refine is_ofInt_of_representable ?_
  rw [hone, ← Int.natCast_mul, ← Nat.pow_add]
  rwa [Int.one_mul] at hpower

theorem zero_is : zero.Is 0 := ⟨rfl, by rw [Int.zero_mul]; rfl⟩

theorem one_is : (1 : Binary64).Is 1 := is_ofNat (n := 1) (by decide)

theorem thousand_is : (1000 : Binary64).Is 1000 := is_ofNat (n := 1000) (by decide)

theorem Is.add {x y : Binary64} (hx : x.Is k) (hy : y.Is l) (h : (k + l).natAbs ≤ 2 ^ 53) :
    (x + y).Is (k + l) := by
  have hr := representable_whole h
  have hsum : k * unitsPerOne + l * unitsPerOne = (k + l) * unitsPerOne := (Int.add_mul ..).symm
  exact (add_within hx.within hy.within hr hr (Int.le_of_eq hsum.symm) (Int.le_of_eq hsum)).is

theorem Is.mul {x y : Binary64} (hx : x.Is k) (hy : y.Is l) (h : (k * l).natAbs ≤ 2 ^ 53) :
    (x * y).Is (k * l) := by
  have hr := representable_whole h
  have hprod : x.units * y.units = k * l * unitsPerOne * unitsPerOne := by
    rw [hx.2, hy.2]
    ring
  exact (mul_within hx.1 hy.1 hr hr (Int.le_of_eq hprod.symm) (Int.le_of_eq hprod)).is

theorem Within.div {x y : Binary64} {lo hi : Int} (h : x.Within lo hi) (hy : y.Is k) (hk : 1 ≤ k)
    (hlo : Representable lo) (hhi : Representable hi) (hnonpos : lo ≤ 0) (hnonneg : 0 ≤ hi) :
    (x / y).Within lo hi := by
  have hunits := unitsPerOne_cast_pos
  apply div_within h.finite hy.1
  · rw [hy.2]
    exact Int.mul_pos (by omega) hunits
  · exact hlo
  · exact hhi
  · rw [hy.2]
    have hscale : lo * k ≤ lo * 1 := Int.mul_le_mul_of_nonpos_left hnonpos hk
    calc lo * (k * unitsPerOne) = lo * k * unitsPerOne := by ring
      _ ≤ lo * 1 * unitsPerOne := by gcongr
      _ = lo * unitsPerOne := by ring
      _ ≤ x.units * unitsPerOne := by
        have := h.ge
        gcongr
  · rw [hy.2]
    have hscale : hi * 1 ≤ hi * k := Int.mul_le_mul_of_nonneg_left hk hnonneg
    calc x.units * unitsPerOne ≤ hi * unitsPerOne := by
          have := h.le
          gcongr
      _ = hi * 1 * unitsPerOne := by ring
      _ ≤ hi * k * unitsPerOne := by gcongr
      _ = hi * (k * unitsPerOne) := by ring

theorem isFinite_div {x y : Binary64} (hx : x.isFinite = true) (hy : y.Is k) (hk : 1 ≤ k) :
    (x / y).isFinite = true := by
  have hrepresentable := x.representable_units
  by_cases h : x.units ≤ 0
  · have hwithin : x.Within x.units 0 := ⟨hx, Int.le_refl _, h⟩
    exact (hwithin.div hy hk hrepresentable representable_zero h (Int.le_refl 0)).finite
  · have hwithin : x.Within 0 x.units := ⟨hx, by omega, Int.le_refl _⟩
    exact (hwithin.div hy hk representable_zero hrepresentable (Int.le_refl 0) (by omega)).finite

theorem Is.lt_iff {x y : Binary64} (hx : x.Is k) (hy : y.Is l) : x.lt y = true ↔ k < l := by
  rw [lt_iff_units hx.1 hy.1, hx.2, hy.2, Int.mul_lt_mul_right unitsPerOne_cast_pos]

theorem Is.eq_iff {x y : Binary64} (hx : x.Is k) (hy : y.Is l) : x.eq y = true ↔ k = l := by
  rw [eq_iff_units hx.1 hy.1, hx.2, hy.2]
  exact Int.mul_eq_mul_right_iff (Int.ne_of_gt unitsPerOne_cast_pos)

theorem Is.le_iff {x y : Binary64} (hx : x.Is k) (hy : y.Is l) : x.le y = true ↔ k ≤ l := by
  rw [Binary64.le_iff, rank_of_isFinite hx.1, rank_of_isFinite hy.1, hx.2, hy.2,
    Int.mul_le_mul_iff_of_pos_right unitsPerOne_cast_pos]
  simp [isNaN_of_isFinite hx.1, isNaN_of_isFinite hy.1]

-- ---------------------------------------------------------------------------
-- Equality
-- ---------------------------------------------------------------------------

theorem eq_of_units {x y : Binary64} (hx : x.isFinite = true) (hy : y.isFinite = true)
    (hs : x.isNegative = y.isNegative) (hu : x.units = y.units) : x = y := by
  obtain ⟨nx, mx, rfl⟩ := (within_units hx).cases
  obtain ⟨ny, my, rfl⟩ := (within_units hy).cases
  have hs : nx = ny := hs
  subst hs
  have hm : mx = my := by
    apply Magnitude.ext
    cases nx <;> simpa [signed] using hu
  rw [hm]

theorem isNegative_of_units {x : Binary64} (h : x.units ≠ 0) : x.isNegative = decide (x.units < 0) := by
  cases x with
  | nan => exact absurd rfl h
  | infinite negative => exact absurd rfl h
  | finite negative magnitude =>
    rw [units_finite] at h ⊢
    cases negative with
    | true =>
      simp only [signed, reduceIte] at h ⊢
      exact (decide_eq_true (by omega)).symm
    | false => exact (decide_eq_false (Int.not_lt.mpr (Int.natCast_nonneg _))).symm

theorem eq_of_units_ne_zero {x y : Binary64} (hx : x.isFinite = true) (hy : y.isFinite = true)
    (hne : x.units ≠ 0) (h : x.units = y.units) : x = y := by
  refine eq_of_units hx hy ?_ h
  rw [isNegative_of_units hne, isNegative_of_units (h ▸ hne), h]

theorem isNegative_ofRatio (negative : Bool) (n d : Nat) :
    (ofRatio negative n d).isNegative = negative := by
  unfold ofRatio
  cases Magnitude.ofRatio? n d <;> rfl

theorem isNegative_ofInt (k : Int) : (ofInt k).isNegative = decide (k < 0) :=
  isNegative_ofRatio _ _ _

theorem isNegative_add {x y : Binary64} (hx : x.isFinite = true) (hy : y.isFinite = true)
    (hn : x.isNegative = false ∨ y.isNegative = false ∨ x.units + y.units ≠ 0) :
    (x + y).isNegative = decide (x.units + y.units < 0) := by
  obtain ⟨nx, mx, rfl⟩ := (within_units hx).cases
  obtain ⟨ny, my, rfl⟩ := (within_units hy).cases
  rw [add_finite]
  split
  · next hz =>
    rw [hz]
    rcases hn with hn | hn | hn
    · have hn : nx = false := hn
      simp [hn, isNegative]
    · have hn : ny = false := hn
      simp [hn, isNegative]
    · exact absurd hz hn
  · rw [isNegative_ofRatio]

theorem units_nonpos_of_isNegative {x : Binary64} (h : x.isNegative = true) : x.units ≤ 0 := by
  cases x with
  | finite negative magnitude =>
    have h : negative = true := h
    simp [h, units]
  | _ => exact Int.le_refl 0

theorem ofInt_add {k l : Int} {y : Binary64} (hy : y.Is l) (hk : k.natAbs ≤ 2 ^ 53)
    (h : (k + l).natAbs ≤ 2 ^ 53) : ofInt k + y = ofInt (k + l) := by
  have hx := is_ofInt hk
  have hsum := hx.add hy h
  refine eq_of_units hsum.1 (is_ofInt h).1 ?_ (by rw [hsum.2, (is_ofInt h).2])
  rw [isNegative_add hx.1 hy.1, isNegative_ofInt, hx.2, hy.2, ← Int.add_mul]
  · congr 1
    have := Int.mul_lt_mul_right (b := k + l) (c := 0) unitsPerOne_cast_pos
    rw [Int.zero_mul] at this
    exact propext this
  · by_cases hpos : 0 ≤ k
    · exact .inl (by rw [isNegative_ofInt]; simpa using hpos)
    · cases hneg : y.isNegative with
      | false => exact .inr (.inl rfl)
      | true =>
        have hle := units_nonpos_of_isNegative hneg
        have hlt := Int.mul_neg_of_neg_of_pos (a := k) (by omega) unitsPerOne_cast_pos
        exact .inr (.inr (by rw [hx.2]; omega))

theorem ofNat_add {m n : Nat} (h : m + n ≤ 2 ^ 53) : ofNat m + ofNat n = ofNat (m + n) := by
  have := ofInt_add (k := m) (is_ofInt (k := n) (by omega)) (by omega) (by omega)
  simpa [ofNat] using this

/-- Doubles do not count beyond 2^53. -/
theorem ofNat_min_add_one (n : Nat) :
    ofNat (Min.min n (2 ^ 53)) + 1 = ofNat (Min.min (n + 1) (2 ^ 53)) := by
  rcases Nat.lt_or_ge n (2 ^ 53) with h | h
  · rw [Nat.min_eq_left (Nat.le_of_lt h), Nat.min_eq_left h]
    exact ofNat_add h
  · rw [Nat.min_eq_right h, Nat.min_eq_right (Nat.le_succ_of_le h)]
    decide +kernel

-- ---------------------------------------------------------------------------
-- Views
-- ---------------------------------------------------------------------------

theorem signed_natAbs_of_units {negative : Bool} {m : Nat} {k : Int}
    (hge : k * unitsPerOne ≤ signed negative m) (hlt : signed negative m < (k + 1) * unitsPerOne) :
    signed negative k.natAbs = k := by
  cases negative with
  | false =>
    have hz : (0 : Int) * unitsPerOne < (k + 1) * unitsPerOne := by
      rw [Int.zero_mul]
      exact Int.lt_of_le_of_lt (Int.natCast_nonneg _) hlt
    have := Int.lt_of_mul_lt_mul_right hz (Int.le_of_lt unitsPerOne_cast_pos)
    exact Int.natAbs_of_nonneg (by omega)
  | true =>
    have hz : k * unitsPerOne ≤ 0 * unitsPerOne := by
      rw [Int.zero_mul]
      exact Int.le_trans hge (Int.neg_nonpos_of_nonneg (Int.natCast_nonneg _))
    exact (Int.eq_neg_natAbs_of_nonpos (Int.le_of_mul_le_mul_right hz unitsPerOne_cast_pos)).symm

theorem Is.toInt? {x : Binary64} (h : x.Is k) : x.toInt? = some k := by
  obtain ⟨negative, magnitude, rfl⟩ := h.within.cases
  have hu := h.2
  rw [units_finite] at hu
  have hm : magnitude.units = k.natAbs * unitsPerOne := by
    have := congrArg Int.natAbs hu
    rw [Int.natAbs_mul, Int.natAbs_natCast] at this
    rw [← this]
    cases negative <;> simp [signed]
  simp only [Binary64.toInt?, hm, Nat.mul_mod_left, reduceIte,
    Nat.mul_div_cancel _ unitsPerOne_pos, Option.some.injEq]
  apply signed_natAbs_of_units (Int.le_of_eq hu.symm)
  rw [hu, Int.add_mul, Int.one_mul]
  exact Int.lt_add_of_pos_right _ unitsPerOne_cast_pos

theorem Is.isInteger {x : Binary64} (h : x.Is k) : x.isInteger = true := by
  rw [Binary64.isInteger, h.toInt?]
  rfl

theorem exists_is {x : Binary64} (h : x.isInteger = true) : ∃ k, x.Is k := by
  cases x with
  | nan => cases h
  | infinite negative => cases h
  | finite negative magnitude =>
    by_cases hwhole : magnitude.units % unitsPerOne = 0
    · obtain ⟨c, hc⟩ := Nat.dvd_of_mod_eq_zero hwhole
      refine ⟨signed negative c, rfl, ?_⟩
      rw [units_finite, hc]
      cases negative <;> simp [signed, Int.mul_comm]
    · simp [isInteger, Binary64.toInt?, hwhole] at h

theorem isInteger_ofRatio {negative : Bool} {n : Nat} (h : unitsPerOne ∣ n)
    (hlt : Magnitude.roundedUnits n 1 < unitsLimit) :
    (ofRatio negative n 1).isInteger = true := by
  obtain ⟨exponent, -, hone⟩ := unitsPerOne_eq
  have hrounded : unitsPerOne ∣ Magnitude.roundedUnits n 1 := by
    rw [hone] at h ⊢
    exact Magnitude.dvd_roundedUnits h
  have heq : ofRatio negative n 1 = .finite negative
      ⟨Magnitude.roundedUnits n 1, Magnitude.significant_roundedUnits n 1, hlt⟩ := by
    simp [ofRatio, Magnitude.ofRatio?, hlt]
  simp [heq, isInteger, Binary64.toInt?, Nat.mod_eq_zero_of_dvd hrounded]

theorem isInteger_add_one {x : Binary64} (h : x.isInteger = true) : (x + 1).isInteger = true := by
  obtain ⟨k, hfinite, hunits⟩ := exists_is h
  have hsum : x.units + (1 : Binary64).units = (k + 1) * unitsPerOne := by
    rw [hunits, one_is.2, Int.add_mul]
  -- Next to the largest double one is less than half the last bit.
  have hround : Magnitude.roundedUnits ((k + 1) * unitsPerOne).natAbs 1 < unitsLimit := by
    obtain ⟨exponent, hexponent, hunit⟩ := unitsPerOne_eq
    obtain ⟨last, hlast, hlimit⟩ := unitsLimit_eq
    have hle : ((k + 1) * unitsPerOne).natAbs ≤ x.units.natAbs + unitsPerOne := by
      rw [hunits, Int.add_mul, Int.one_mul]
      omega
    refine Nat.lt_of_le_of_lt (Magnitude.roundedUnits_mono Nat.one_pos hle) ?_
    have hrepresentable := x.representable_units
    have hlt := hrepresentable.2
    rw [hlimit] at hlt ⊢
    refine Magnitude.roundedUnits_add_lt hrepresentable.1 hlt ?_
    rw [hunit, ← Nat.pow_succ']
    exact Nat.pow_lt_pow_right (by decide) (by omega)
  obtain ⟨negative, magnitude, rfl⟩ := (within_units hfinite).cases
  obtain ⟨negative', magnitude', hcases⟩ := one_is.within.cases
  rw [hcases] at hsum ⊢
  rw [add_finite, hsum]
  split
  · cases negative && negative' <;> decide +kernel
  · refine isInteger_ofRatio ?_ hround
    exact Int.natCast_dvd.mp (Int.dvd_mul_left _ _)

theorem text_of_is {x : Binary64} (h : x.Is k) (hk : k.natAbs ≤ safeLimit.natAbs) :
    x.text = String.ofList (intNumeral k) := by
  have hi := h.toInt?
  obtain ⟨negative, magnitude, rfl⟩ := h.within.cases
  rw [Binary64.text, chars, hi]
  simp [hk]

theorem toWhole_is_of_representable {round : Int → Int} {x : Binary64} {k : Int}
    (hr : Representable (k * unitsPerOne)) (hx : x.isFinite = true) (hround : round x.units = k)
    (hsign : signed x.isNegative k.natAbs = k) : (toWhole round x).Is k := by
  obtain ⟨negative, magnitude, rfl⟩ := (within_units hx).cases
  have hsigned : signed negative (k.natAbs * unitsPerOne) = k * unitsPerOne := by
    conv_rhs => rw [← hsign]
    cases negative <;> simp [signed, isNegative]
  apply Within.is
  show (ofRatio negative ((round _).natAbs * unitsPerOne) 1).Within _ _
  rw [hround]
  apply ofRatio_within Nat.one_pos hr hr
  · rw [hsigned]
    exact Int.le_of_eq (Int.mul_one _)
  · rw [hsigned]
    exact Int.le_of_eq (Int.mul_one _).symm

theorem toWhole_is {round : Int → Int} {x : Binary64} {k : Int} (hk : k.natAbs ≤ 2 ^ 53)
    (hx : x.isFinite = true) (hround : round x.units = k)
    (hsign : signed x.isNegative k.natAbs = k) : (toWhole round x).Is k :=
  toWhole_is_of_representable (representable_whole hk) hx hround hsign

theorem floor_is_of_representable {x : Binary64} {k : Int} (hr : Representable (k * unitsPerOne))
    (hge : k * unitsPerOne ≤ x.units) (hlt : x.units < (k + 1) * unitsPerOne)
    (hx : x.isFinite = true) : x.floor.Is k := by
  refine toWhole_is_of_representable hr hx ?_ ?_
  · rw [Int.fdiv_eq_ediv_of_nonneg _ (Int.le_of_lt unitsPerOne_cast_pos)]
    have hlow := (Int.le_ediv_iff_mul_le unitsPerOne_cast_pos).mpr hge
    have hup := (Int.ediv_lt_iff_lt_mul unitsPerOne_cast_pos).mpr hlt
    omega
  · obtain ⟨negative, magnitude, rfl⟩ := (within_units hx).cases
    rw [units_finite] at hge hlt
    exact signed_natAbs_of_units hge hlt

theorem floor_is {x : Binary64} {k : Int} (hk : k.natAbs ≤ 2 ^ 53)
    (hge : k * unitsPerOne ≤ x.units) (hlt : x.units < (k + 1) * unitsPerOne)
    (hx : x.isFinite = true) : x.floor.Is k :=
  floor_is_of_representable (representable_whole hk) hge hlt hx

theorem Is.trunc {x : Binary64} (h : x.Is k) (hk : k.natAbs ≤ 2 ^ 53) : x.trunc.Is k := by
  refine toWhole_is hk h.1 ?_ ?_
  · rw [h.2]
    exact Int.mul_tdiv_cancel _ (Int.ne_of_gt unitsPerOne_cast_pos)
  · obtain ⟨negative, magnitude, rfl⟩ := h.within.cases
    have hu := h.2
    rw [units_finite] at hu
    apply signed_natAbs_of_units (Int.le_of_eq hu.symm)
    rw [hu, Int.add_mul, Int.one_mul]
    exact Int.lt_add_of_pos_right _ unitsPerOne_cast_pos

section
variable {x : Binary64} {a b : Int}

theorem toWhole_within {round : Int → Int} (h : x.Within (a * unitsPerOne) (b * unitsPerOne))
    (ha : 0 ≤ a) (hb : b ≤ 2 ^ 53) (hzero : round 0 = 0) (hlow : a ≤ round x.units)
    (hhigh : round x.units ≤ b) : ∃ k, a ≤ k ∧ k ≤ b ∧ (toWhole round x).Is k := by
  have hunits : 0 ≤ x.units :=
    Int.le_trans (Int.mul_nonneg ha (Int.le_of_lt unitsPerOne_cast_pos)) h.ge
  refine ⟨round x.units, hlow, hhigh, toWhole_is (by omega) h.finite rfl ?_⟩
  obtain ⟨negative, magnitude, rfl⟩ := h.cases
  cases negative with
  | false => exact Int.natAbs_of_nonneg (Int.le_trans ha hlow)
  | true =>
    have hnone : (finite true magnitude).units = 0 := by
      simp only [units_finite, signed, reduceIte] at hunits ⊢
      omega
    rw [hnone, hzero]
    rfl

theorem ceil_within (h : x.Within (a * unitsPerOne) (b * unitsPerOne)) (ha : 0 ≤ a)
    (hb : b ≤ 2 ^ 53) : ∃ k, a ≤ k ∧ k ≤ b ∧ x.ceil.Is k := by
  have hpos := unitsPerOne_cast_pos
  have hfdiv := Int.fdiv_eq_ediv_of_nonneg (-x.units) (Int.le_of_lt hpos)
  refine toWhole_within h ha hb (by simp) ?_ ?_
  · have hlt : -x.units / unitsPerOne ≤ -a :=
      Int.ediv_le_of_le_mul hpos (by linarith [h.ge, Int.neg_mul a unitsPerOne])
    omega
  · have hge : -b ≤ -x.units / unitsPerOne :=
      (Int.le_ediv_iff_mul_le hpos).mpr (by linarith [h.le, Int.neg_mul b unitsPerOne])
    omega

theorem trunc_within (h : x.Within (a * unitsPerOne) (b * unitsPerOne)) (ha : 0 ≤ a)
    (hb : b ≤ 2 ^ 53) : ∃ k, a ≤ k ∧ k ≤ b ∧ x.trunc.Is k := by
  have hpos := unitsPerOne_cast_pos
  have hunits : 0 ≤ x.units := Int.le_trans (Int.mul_nonneg ha (Int.le_of_lt hpos)) h.ge
  refine toWhole_within h ha hb (by simp) ?_ ?_
  · rw [Int.tdiv_eq_ediv_of_nonneg hunits]
    exact (Int.le_ediv_iff_mul_le hpos).mpr h.ge
  · rw [Int.tdiv_eq_ediv_of_nonneg hunits]
    exact Int.ediv_le_of_le_mul hpos h.le

end

end SlidingTally.Binary64
