import SlidingTally.Proofs.Number.Whole

/-!
# Counting by one

Up to 2^53 one more than a whole double is the next integer. From there on it lies between two
doubles: a multiple of four is what one more than it is rounded to, and from between two multiples
of four one more leads to the next. `nextWhole` is this as a function on integers. Main statements:
`is_floor`, `Is.add_one` and `lt_nextWhole_iff`.
-/

namespace SlidingTally

-- ---------------------------------------------------------------------------
-- Neighbours of a multiple
-- ---------------------------------------------------------------------------

section
variable {c place : Nat}

theorem nearest_mul_add_one (h : 2 < place) : nearest (c * place + 1) place = c := by
  have hmod : (c * place + 1) % place = 1 := by
    rw [Nat.mul_comm, Nat.mul_add_mod, Nat.mod_eq_of_lt (by omega)]
  have hdiv : (c * place + 1) / place = c := by
    rw [Nat.mul_comm, Nat.mul_add_div (by omega), Nat.div_eq_of_lt (by omega), Nat.add_zero]
  simp only [nearest, hmod, hdiv, Nat.mul_one, if_pos h]

theorem nearest_mul_sub_one (hc : 0 < c) (h : 2 < place) : nearest (c * place - 1) place = c := by
  obtain ⟨c, rfl⟩ := Nat.exists_eq_succ_of_ne_zero (Nat.ne_of_gt hc)
  have hsplit : (c + 1) * place - 1 = place * c + (place - 1) := by
    rw [Nat.add_mul, Nat.one_mul, Nat.mul_comm]
    omega
  have hmod : ((c + 1) * place - 1) % place = place - 1 := by
    rw [hsplit, Nat.mul_add_mod, Nat.mod_eq_of_lt (by omega)]
  have hdiv : ((c + 1) * place - 1) / place = c := by
    rw [hsplit, Nat.mul_add_div (by omega), Nat.div_eq_of_lt (by omega), Nat.add_zero]
  simp only [nearest, hmod, hdiv, if_neg (show ¬2 * (place - 1) < place by omega),
    if_pos (show place < 2 * (place - 1) by omega)]

end

theorem nearest_two {n : Nat} (h : n % 2 = 1) : nearest n 2 * 2 = if n % 4 = 1 then n - 1 else n + 1 := by
  simp only [nearest, if_neg (show ¬2 * (n % 2) < 2 by omega),
    if_neg (show ¬2 < 2 * (n % 2) by omega)]
  split <;> omega

-- ---------------------------------------------------------------------------
-- Large whole numbers
-- ---------------------------------------------------------------------------

namespace Magnitude

/-- The last bit that a whole number keeps, as a number of ones. -/
def place (n : Nat) : Nat := 2 ^ (n.log2 - 52)

theorem roundedUnits_whole {n : Nat} (hn : 2 ^ 53 ≤ n) :
    roundedUnits (n * unitsPerOne) 1 = nearest n (place n) * place n * unitsPerOne := by
  obtain ⟨exponent, -, hone⟩ := Binary64.unitsPerOne_eq
  have hlog : 53 ≤ n.log2 := (Nat.le_log2 (by omega)).mpr hn
  have hbit : lastBit (n * unitsPerOne) 1 = n.log2 - 52 + exponent := by
    rw [lastBit, Nat.div_one, hone, log2_mul_two_pow (by omega)]
    omega
  rw [roundedUnits, hbit, Nat.pow_eq, Nat.pow_add, ← hone, Nat.one_mul,
    nearest_mul_mul _ _ unitsPerOne_pos, ← Nat.mul_assoc]
  rfl

theorem place_cases {n : Nat} (hn : 2 ^ 53 ≤ n) :
    place n = 2 ∨ ∃ q, 0 < q ∧ place n = 4 * q := by
  have hlog : 53 ≤ n.log2 := (Nat.le_log2 (by omega)).mpr hn
  rcases Nat.lt_or_eq_of_le hlog with hlt | heq
  · refine .inr ⟨2 ^ (n.log2 - 54), Nat.two_pow_pos _, ?_⟩
    rw [place, show n.log2 - 52 = 2 + (n.log2 - 54) by omega, Nat.pow_add]
  · exact .inl (by rw [place, ← heq]; rfl)

section
variable {m : Nat} (hm : Significant m)
include hm

theorem place_dvd {n : Nat} (h : n.log2 ≤ m.log2) : place n ∣ m :=
  Nat.dvd_trans (Nat.pow_dvd_pow 2 (Nat.sub_le_sub_right h 52)) hm

theorem even_of_significant (hlarge : 2 ^ 53 ≤ m) : m % 2 = 0 := by
  have hplace := place_dvd hm (Nat.le_refl m.log2)
  rcases place_cases hlarge with h | ⟨q, -, h⟩
  · rw [h] at hplace
    omega
  · rw [h] at hplace
    exact Nat.mod_eq_zero_of_dvd (Nat.dvd_trans ⟨2 * q, by ring⟩ hplace)

/-- One more than a large magnitude is rounded to it or to the next multiple of four. -/
theorem nearest_add_one (hlarge : 2 ^ 53 ≤ m) :
    nearest (m + 1) (place (m + 1)) * place (m + 1) = if m % 4 = 2 then m + 2 else m := by
  have heven := even_of_significant hm hlarge
  -- An odd number is no power of two, so it has as many bits as the even one before it.
  have hlog : (m + 1).log2 ≤ m.log2 := by
    have hpow := Nat.log2_self_le (n := m + 1) (by omega)
    have hbits : 53 ≤ (m + 1).log2 := (Nat.le_log2 (by omega)).mpr (by omega)
    have hhalf : 2 ^ (m + 1).log2 = 2 * 2 ^ ((m + 1).log2 - 1) := by
      rw [← Nat.pow_succ']
      congr 1
      omega
    exact (Nat.le_log2 (by omega)).mpr (by omega)
  obtain ⟨c, hc⟩ := place_dvd hm hlog
  rcases place_cases (n := m + 1) (by omega) with h | ⟨q, hq, h⟩
  · rw [h, nearest_two (by omega)]
    split <;> split <;> omega
  · rw [h] at hc ⊢
    have hfour : 4 * q * c % 4 = 0 := by rw [Nat.mul_assoc]; exact Nat.mul_mod_right 4 _
    rw [hc, Nat.mul_comm (4 * q), nearest_mul_add_one (by omega), if_neg]
    rw [Nat.mul_comm c, hfour]
    decide

theorem nearest_sub_one (hlarge : 2 ^ 53 < m) :
    nearest (m - 1) (place (m - 1)) * place (m - 1) = if m % 4 = 2 then m - 2 else m := by
  have heven := even_of_significant hm (Nat.le_of_lt hlarge)
  obtain ⟨c, hc⟩ := place_dvd hm (log2_le_log2 (Nat.sub_le m 1))
  rcases place_cases (n := m - 1) (by omega) with h | ⟨q, hq, h⟩
  · rw [h, nearest_two (by omega)]
    split <;> split <;> omega
  · rw [h] at hc ⊢
    have hpos : 0 < c := Nat.pos_of_ne_zero (by rintro rfl; omega)
    have hfour : 4 * q * c % 4 = 0 := by rw [Nat.mul_assoc]; exact Nat.mul_mod_right 4 _
    rw [hc, Nat.mul_comm (4 * q), nearest_mul_sub_one hpos (by omega), if_neg]
    rw [Nat.mul_comm c, hfour]
    decide

end

end Magnitude

namespace Binary64

section
variable {x y : Binary64} {k : Int}

theorem Is.significant (h : x.Is k) : Significant k.natAbs := by
  obtain ⟨exponent, -, hone⟩ := unitsPerOne_eq
  have hunits := x.representable_units.1
  rw [h.2, Int.natAbs_mul, Int.natAbs_natCast, hone] at hunits
  by_cases hsmall : k.natAbs.log2 ≤ 52
  · rw [Significant, Nat.sub_eq_zero_of_le hsmall]
    exact Nat.one_dvd _
  · have hk : k.natAbs ≠ 0 := fun hzero => hsmall (by rw [hzero]; decide)
    have hbit : k.natAbs.log2 + exponent - 52 = k.natAbs.log2 - 52 + exponent := by omega
    rw [Significant, log2_mul_two_pow hk, Nat.pow_eq, hbit, Nat.pow_add] at hunits
    exact Nat.dvd_of_mul_dvd_mul_right (Nat.two_pow_pos exponent) hunits

/-- Doubles from 2^53 on are whole. -/
theorem unitsPerOne_dvd (h : 2 ^ 53 * unitsPerOne ≤ x.units.natAbs) :
    (unitsPerOne : Int) ∣ x.units := by
  obtain ⟨exponent, -, hone⟩ := unitsPerOne_eq
  have hpos := unitsPerOne_pos
  have hlog : 53 + exponent ≤ x.units.natAbs.log2 := by
    refine (Nat.le_log2 (by omega)).mpr ?_
    rwa [Nat.pow_add, ← hone]
  have hunits := Nat.dvd_trans (Nat.pow_dvd_pow 2 (show exponent ≤ _ by omega))
    x.representable_units.1
  rw [← hone] at hunits
  exact Int.natCast_dvd.mpr hunits

theorem is_floor (hx : x.isFinite = true) : x.floor.Is (x.units / unitsPerOne) := by
  have hpos := unitsPerOne_cast_pos
  have hle := Int.ediv_mul_le x.units (Int.ne_of_gt hpos)
  have hlt := Int.lt_ediv_add_one_mul_self x.units hpos
  refine floor_is_of_representable ?_ hle hlt hx
  by_cases hlarge : 2 ^ 53 * unitsPerOne ≤ x.units.natAbs
  · rw [Int.ediv_mul_cancel (unitsPerOne_dvd hlarge)]
    exact x.representable_units
  · have hge : -(2 ^ 53 : Nat) ≤ x.units / unitsPerOne :=
      (Int.le_ediv_iff_mul_le hpos).mpr (by omega)
    have hup : x.units / unitsPerOne < (2 ^ 53 : Nat) :=
      (Int.ediv_lt_iff_lt_mul hpos).mpr (by omega)
    exact representable_whole (by omega)

-- ---------------------------------------------------------------------------
-- One more
-- ---------------------------------------------------------------------------

theorem infinite_add_one (negative : Bool) : infinite negative + 1 = infinite negative := by
  obtain ⟨negative', magnitude, hone⟩ := one_is.within.cases
  rw [hone]
  rfl

theorem Is.units_add_one (h : x.Is k) (hne : k + 1 ≠ 0) : (x + 1).isFinite = true ∧
    (x + 1).units = signed (k + 1 < 0) (Magnitude.roundedUnits ((k + 1).natAbs * unitsPerOne) 1) := by
  have hpos := unitsPerOne_cast_pos
  have hunits : x.units + (1 : Binary64).units = (k + 1) * unitsPerOne := by
    rw [h.2, one_is.2, Int.add_mul]
  have hsign : ((k + 1) * unitsPerOne < 0) = (k + 1 < 0) := by
    have := Int.mul_lt_mul_right (b := k + 1) (c := 0) hpos
    rw [Int.zero_mul] at this
    exact propext this
  obtain ⟨_, hsum⟩ := exists_is (isInteger_add_one h.isInteger)
  have hfinite := hsum.1
  obtain ⟨negative, magnitude, rfl⟩ := h.within.cases
  obtain ⟨negative', magnitude', hcases⟩ := one_is.within.cases
  rw [hcases] at hunits hfinite ⊢
  have hadd : finite negative magnitude + finite negative' magnitude' =
      ofRatio (decide (k + 1 < 0)) ((k + 1).natAbs * unitsPerOne) 1 := by
    rw [add_finite, hunits, if_neg (Int.mul_ne_zero hne (Int.ne_of_gt hpos)), Int.natAbs_mul,
      Int.natAbs_natCast]
    simp only [hsign]
  rw [hadd] at hfinite ⊢
  exact ⟨hfinite, units_ofRatio (roundedUnits_lt hfinite)⟩

/-- The integer that one more than a whole double is. -/
def nextWhole (k : Int) : Int :=
  if -(2 ^ 53) ≤ k ∧ k < 2 ^ 53 then k + 1
  else if k % 4 = 2 then k + 2
  else k

theorem Is.add_one (h : x.Is k) : (x + 1).Is (nextWhole k) := by
  by_cases hsmall : -(2 ^ 53) ≤ k ∧ k < 2 ^ 53
  · rw [nextWhole, if_pos hsmall]
    exact h.add one_is (by omega)
  · obtain ⟨hfinite, hunits⟩ := h.units_add_one (by omega)
    refine ⟨hfinite, ?_⟩
    rw [hunits, Magnitude.roundedUnits_whole (by omega), nextWhole, if_neg hsmall]
    by_cases hneg : k < 0
    · have hpred : (k + 1).natAbs = k.natAbs - 1 := by omega
      have hvalue : -((if k.natAbs % 4 = 2 then k.natAbs - 2 else k.natAbs : Nat) : Int) =
          if k % 4 = 2 then k + 2 else k := by
        split <;> split <;> omega
      rw [hpred, Magnitude.nearest_sub_one h.significant (by omega), signed,
        if_pos (decide_eq_true (by omega)), Int.natCast_mul, ← Int.neg_mul, hvalue]
    · have hsucc : (k + 1).natAbs = k.natAbs + 1 := by omega
      have hvalue : ((if k.natAbs % 4 = 2 then k.natAbs + 2 else k.natAbs : Nat) : Int) =
          if k % 4 = 2 then k + 2 else k := by
        split <;> split <;> omega
      rw [hsucc, Magnitude.nearest_add_one h.significant (by omega), signed,
        if_neg (by rw [decide_eq_true_iff]; omega), Int.natCast_mul, hvalue]

theorem is_least : (ofInt (-(2 ^ 53 + 2))).Is (-(2 ^ 53 + 2)) := by
  obtain ⟨exponent, hexponent, hone⟩ := unitsPerOne_eq
  refine is_ofInt_of_representable ?_
  have hrepresentable : Representable (-(2 ^ 52 + 1) * (2 ^ (exponent + 1) : Nat)) :=
    representable_mul_pow (by decide) (by omega)
  rw [hone]
  convert hrepresentable using 1
  push_cast
  ring

theorem lt_nextWhole_iff : k < nextWhole k ↔ -(2 ^ 53) ≤ k ∧ k < 2 ^ 53 ∨ k % 4 = 2 := by
  unfold nextWhole
  split
  · omega
  · split <;> omega

theorem le_nextWhole (k : Int) : k ≤ nextWhole k := by
  unfold nextWhole
  split
  · omega
  · split <;> omega

theorem nextWhole_iterate_mono (k : Int) {m n : Nat} (h : m ≤ n) :
    nextWhole^[m] k ≤ nextWhole^[n] k := by
  induction h with
  | refl => exact Int.le_refl _
  | step h ih =>
    rw [Function.iterate_succ_apply']
    exact Int.le_trans ih (le_nextWhole _)

/-- A multiple of four that one more does not change is never passed. -/
theorem nextWhole_iterate_le {stop : Int} (hfour : stop % 4 = 0)
    (hlarge : stop < -(2 ^ 53) ∨ 2 ^ 53 ≤ stop) (h : k ≤ stop) (n : Nat) :
    nextWhole^[n] k ≤ stop := by
  induction n with
  | zero => exact h
  | succ n ih =>
    rw [Function.iterate_succ_apply', nextWhole]
    split
    · omega
    · split <;> omega

theorem Is.even (h : x.Is k) (hlarge : 2 ^ 53 ≤ k.natAbs) : k % 2 = 0 := by
  have := Magnitude.even_of_significant h.significant hlarge
  omega

theorem Is.lt_add_one_iff (h : x.Is k) : x.lt (x + 1) = true ↔ k < nextWhole k :=
  h.lt_iff h.add_one

theorem Is.add_one_eq_iff (h : x.Is k) : x + 1 = x ↔ nextWhole k = k := by
  constructor
  · intro heq
    have hsum := h.add_one
    rw [heq] at hsum
    exact hsum.eq h
  · intro heq
    have hfixed : ¬k < nextWhole k := by omega
    rw [lt_nextWhole_iff] at hfixed
    have hsum := h.add_one
    rw [heq] at hsum
    refine eq_of_units_ne_zero hsum.1 h.1 ?_ (hsum.2.trans h.2.symm)
    rw [hsum.2]
    exact Int.mul_ne_zero (by omega) (Int.ne_of_gt unitsPerOne_cast_pos)

end

end Binary64

end SlidingTally
