import Mathlib.Tactic.Linarith
import Mathlib.Tactic.Ring
import SlidingTally.Number.Binary64

/-!
# Rounding between bounds

Rounding keeps a quotient between any two doubles that it lies between. `Within` says that a
double is finite and lies between two numbers of units; `add_within`, `sub_within`,
`mul_within` and `div_within` carry such bounds through an operation, where only the outer
bounds have to be doubles themselves.
-/

namespace SlidingTally

-- ---------------------------------------------------------------------------
-- The nearest whole number
-- ---------------------------------------------------------------------------

theorem nearest_le_of_le {n d m : Nat} (hd : 0 < d) (h : n ≤ m * d) : nearest n d ≤ m := by
  have hq : n / d ≤ m := Nat.div_le_of_le_mul (by rwa [Nat.mul_comm] at h)
  rcases Nat.lt_or_eq_of_le hq with hlt | heq
  · exact Nat.le_trans (nearest_le n d) hlt
  · have hn : n = m * d := Nat.le_antisymm h (by rw [← heq]; exact Nat.div_mul_le_self n d)
    exact Nat.le_of_eq (by rw [hn, nearest_mul m d hd])

theorem le_nearest_of_le {n d m : Nat} (hd : 0 < d) (h : m * d ≤ n) : m ≤ nearest n d :=
  Nat.le_trans ((Nat.le_div_iff_mul_le hd).mpr h) (le_nearest n d)

theorem lt_nearest {n d m : Nat} (hd : 0 < d) (h : (2 * m + 1) * d < 2 * n) : m < nearest n d := by
  rw [Nat.add_mul, Nat.mul_assoc] at h
  rcases Nat.lt_or_eq_of_le ((Nat.le_div_iff_mul_le hd).mpr (show m * d ≤ n by omega)) with hlt | rfl
  · exact Nat.lt_of_lt_of_le hlt (le_nearest n d)
  · have hmod := Nat.div_add_mod' n d
    unfold nearest
    simp only
    rw [if_neg (by omega), if_pos (by omega)]
    exact Nat.lt_succ_self _

theorem nearest_mono {n n' d : Nat} (h : n ≤ n') : nearest n d ≤ nearest n' d := by
  rcases Nat.lt_or_eq_of_le (Nat.div_le_div_right (c := d) h) with hlt | heq
  · exact Nat.le_trans (nearest_le n d) (Nat.le_trans hlt (le_nearest n' d))
  · have hmod : n % d ≤ n' % d := by
      have hn := Nat.div_add_mod n d
      have hn' := Nat.div_add_mod n' d
      rw [heq] at hn
      omega
    unfold nearest
    simp only [heq]
    split
    · split
      · omega
      · split <;> omega
    · split
      · rw [if_neg (by omega), if_pos (by omega)]
      · rw [if_neg (by omega)]
        split <;> omega

theorem nearest_mul_mul (n d : Nat) {k : Nat} (hk : 0 < k) :
    nearest (n * k) (d * k) = nearest n d := by
  have htwice : 2 * (n % d * k) = 2 * (n % d) * k := (Nat.mul_assoc ..).symm
  simp only [nearest, Nat.mul_div_mul_right _ _ hk, Nat.mul_mod_mul_right, htwice,
    Nat.mul_lt_mul_right hk]

theorem log2_le_log2 {a b : Nat} (h : a ≤ b) : a.log2 ≤ b.log2 := by
  by_cases ha : a = 0
  · subst ha
    simp
  · have hb : b ≠ 0 := by omega
    exact (Nat.le_log2 hb).mpr (Nat.le_trans (Nat.log2_self_le ha) h)

theorem log2_mul_two_pow {n : Nat} (hn : n ≠ 0) (exponent : Nat) :
    (n * 2 ^ exponent).log2 = n.log2 + exponent := by
  have hpos := Nat.two_pow_pos exponent
  rw [Nat.log2_eq_iff (Nat.mul_ne_zero hn (Nat.ne_of_gt hpos)), Nat.pow_add, Nat.add_right_comm,
    Nat.pow_add]
  exact ⟨Nat.mul_le_mul_right _ (Nat.log2_self_le hn),
    Nat.mul_lt_mul_of_pos_right Nat.lt_log2_self hpos⟩

theorem significant_two_pow (exponent : Nat) : Significant (2 ^ exponent) := by
  rw [Significant, Nat.pow_eq, Nat.log2_two_pow]
  exact Nat.pow_dvd_pow 2 (Nat.sub_le _ _)

namespace Magnitude

theorem roundedUnits_le {n d m : Nat} (hd : 0 < d) (hm : Significant m) (h : n ≤ m * d) :
    roundedUnits n d ≤ m := by
  have hq : n / d ≤ m := Nat.div_le_of_le_mul (by rwa [Nat.mul_comm] at h)
  have hp : lastBit n d ≤ m.log2 - 52 := Nat.sub_le_sub_right (log2_le_log2 hq) 52
  obtain ⟨c, hc⟩ := Nat.dvd_trans (Nat.pow_dvd_pow 2 hp) hm
  have hn : nearest n (d * 2 ^ lastBit n d) ≤ c := by
    apply nearest_le_of_le (Nat.mul_pos hd (Nat.two_pow_pos _))
    calc n ≤ m * d := h
      _ = 2 ^ lastBit n d * c * d := by rw [← hc]
      _ = c * (d * 2 ^ lastBit n d) := by ring
  calc roundedUnits n d ≤ c * 2 ^ lastBit n d := Nat.mul_le_mul_right _ hn
    _ = m := by rw [Nat.mul_comm, ← hc]

theorem le_roundedUnits {n d m : Nat} (hd : 0 < d) (hm : Significant m) (h : m * d ≤ n) :
    m ≤ roundedUnits n d := by
  have hq : m ≤ n / d := (Nat.le_div_iff_mul_le hd).mpr h
  have hpos : 0 < d * 2 ^ lastBit n d := Nat.mul_pos hd (Nat.two_pow_pos _)
  by_cases hp : lastBit n d ≤ m.log2 - 52
  · obtain ⟨c, hc⟩ := Nat.dvd_trans (Nat.pow_dvd_pow 2 hp) hm
    have hn : c ≤ nearest n (d * 2 ^ lastBit n d) := by
      apply le_nearest_of_le hpos
      calc c * (d * 2 ^ lastBit n d) = 2 ^ lastBit n d * c * d := by ring
        _ = m * d := by rw [← hc]
        _ ≤ n := h
    calc m = c * 2 ^ lastBit n d := by rw [Nat.mul_comm, ← hc]
      _ ≤ roundedUnits n d := Nat.mul_le_mul_right _ hn
  · -- here `m` has fewer bits than the quotient, so the leading bit alone is above it
    have hlog : (n / d).log2 = 52 + lastBit n d := by
      unfold lastBit at hp ⊢
      omega
    have hne : n / d ≠ 0 := by
      intro hz
      rw [hz] at hlog
      simp at hlog
      omega
    have hlead : 2 ^ (52 + lastBit n d) ≤ n / d := by
      rw [← hlog]
      exact Nat.log2_self_le hne
    have hn : 2 ^ 52 ≤ nearest n (d * 2 ^ lastBit n d) := by
      apply le_nearest_of_le hpos
      calc 2 ^ 52 * (d * 2 ^ lastBit n d) = 2 ^ (52 + lastBit n d) * d := by
            rw [Nat.pow_add, Nat.mul_assoc, Nat.mul_comm d]
        _ ≤ n := (Nat.le_div_iff_mul_le hd).mp hlead
    have hlt : m < 2 ^ (52 + lastBit n d) := by
      by_cases hz : m = 0
      · subst hz
        exact Nat.two_pow_pos _
      · exact (Nat.log2_lt hz).mp (by omega)
    calc m ≤ 2 ^ 52 * 2 ^ lastBit n d := by
          rw [← Nat.pow_add]
          exact Nat.le_of_lt hlt
      _ ≤ roundedUnits n d := Nat.mul_le_mul_right _ hn

theorem roundedUnits_zero {d : Nat} (hd : 0 < d) : roundedUnits 0 d = 0 :=
  Nat.le_zero.mp (roundedUnits_le hd (by simp [Significant]) (Nat.zero_le _))

theorem roundedUnits_mono {n n' d : Nat} (hd : 0 < d) (h : n ≤ n') :
    roundedUnits n d ≤ roundedUnits n' d := by
  have hq : n / d ≤ n' / d := Nat.div_le_div_right h
  have hbit : lastBit n d ≤ lastBit n' d := Nat.sub_le_sub_right (log2_le_log2 hq) 52
  rcases Nat.lt_or_eq_of_le hbit with hlt | heq
  · -- a power of two lies between the quotients
    have hpower := significant_two_pow (n' / d).log2
    unfold lastBit at hlt
    have hne : n' / d ≠ 0 := by
      intro hz
      rw [hz] at hlt
      simp at hlt
    have hbelow : n / d < 2 ^ (n' / d).log2 := by
      by_cases hz : n / d = 0
      · rw [hz]
        exact Nat.two_pow_pos _
      · exact (Nat.log2_lt hz).mp (by omega)
    calc roundedUnits n d ≤ 2 ^ (n' / d).log2 :=
          roundedUnits_le hd hpower (Nat.le_of_lt ((Nat.div_lt_iff_lt_mul hd).mp hbelow))
      _ ≤ roundedUnits n' d :=
          le_roundedUnits hd hpower ((Nat.le_div_iff_mul_le hd).mp (Nat.log2_self_le hne))
  · simp only [roundedUnits, heq]
    exact Nat.mul_le_mul_right _ (nearest_mono h)

theorem roundedUnits_mul_mul (n d : Nat) {k : Nat} (hk : 0 < k) :
    roundedUnits (n * k) (d * k) = roundedUnits n d := by
  have hplace (place : Nat) : d * k * place = d * place * k := Nat.mul_right_comm d k place
  simp only [roundedUnits, lastBit, Nat.mul_div_mul_right _ _ hk, hplace, nearest_mul_mul _ _ hk]

theorem roundedUnits_of_significant {n : Nat} (h : Significant n) : roundedUnits n 1 = n :=
  Nat.le_antisymm (roundedUnits_le Nat.one_pos h (by omega)) (le_roundedUnits Nat.one_pos h (by omega))

theorem roundedUnits_one {n last : Nat} (h : n.log2 - 52 = last) :
    roundedUnits n 1 = nearest n (2 ^ last) * 2 ^ last := by
  simp only [roundedUnits, lastBit, Nat.div_one, h, Nat.one_mul, Nat.pow_eq]

/-- Below a power of two no double is larger than 53 bits that are all set. -/
theorem le_largest_of_significant {m last : Nat} (hm : Significant m) (hlt : m < 2 ^ (53 + last)) :
    m ≤ (2 ^ 53 - 1) * 2 ^ last := by
  by_cases hsmall : m < 2 ^ (52 + last)
  · rw [Nat.pow_add] at hsmall
    exact Nat.le_trans (Nat.le_of_lt hsmall) (Nat.mul_le_mul_right _ (by decide))
  · have hne : m ≠ 0 := fun hz => hsmall (hz ▸ Nat.two_pow_pos _)
    have hlog : 52 + last ≤ m.log2 := (Nat.le_log2 hne).mpr (by omega)
    obtain ⟨c, hc⟩ := Nat.dvd_trans (Nat.pow_dvd_pow 2 (show last ≤ m.log2 - 52 by omega)) hm
    have hcount : 2 ^ last * c < 2 ^ last * 2 ^ 53 := by
      rwa [← hc, Nat.mul_comm, ← Nat.pow_add]
    rw [hc, Nat.mul_comm]
    exact Nat.mul_le_mul_right _ (Nat.le_sub_one_of_lt (Nat.lt_of_mul_lt_mul_left hcount))

/-- What is added to the largest double and is less than half its last bit is rounded away. -/
theorem roundedUnits_add_lt {m u last : Nat} (hm : Significant m) (hlt : m < 2 ^ (53 + last))
    (hu : 2 * u < 2 ^ last) : roundedUnits (m + u) 1 < 2 ^ (53 + last) := by
  have hpos : 0 < 2 ^ last := Nat.two_pow_pos last
  have hlargest := le_largest_of_significant hm hlt
  have hquotient : ((2 ^ 53 - 1) * 2 ^ last + u) / 2 ^ last = 2 ^ 53 - 1 := by
    rw [Nat.mul_comm, Nat.mul_add_div hpos, Nat.div_eq_of_lt (by omega), Nat.add_zero]
  have hremainder : ((2 ^ 53 - 1) * 2 ^ last + u) % 2 ^ last = u := by
    rw [Nat.mul_comm, Nat.mul_add_mod, Nat.mod_eq_of_lt (by omega)]
  have hlog : ((2 ^ 53 - 1) * 2 ^ last + u).log2 = 52 + last := by
    have hsum : (2 ^ 53 - 1) * 2 ^ last + u < 2 ^ (53 + last) := by
      rw [Nat.pow_add]
      omega
    have hge : 2 ^ (52 + last) ≤ (2 ^ 53 - 1) * 2 ^ last + u := by
      rw [Nat.pow_add]
      omega
    refine (Nat.log2_eq_iff (by omega)).mpr ⟨hge, ?_⟩
    rwa [Nat.add_right_comm]
  calc roundedUnits (m + u) 1 ≤ roundedUnits ((2 ^ 53 - 1) * 2 ^ last + u) 1 :=
        roundedUnits_mono Nat.one_pos (by omega)
    _ = (2 ^ 53 - 1) * 2 ^ last := by
        have hplace : ((2 ^ 53 - 1) * 2 ^ last + u).log2 - 52 = last := by omega
        simp only [roundedUnits_one hplace, nearest, hquotient, hremainder, if_pos hu]
    _ < 2 ^ (53 + last) := by
        rw [Nat.pow_add]
        exact Nat.mul_lt_mul_of_pos_right (by decide) hpos

/-- What is added and is more than half the last bit is not rounded away. -/
theorem lt_roundedUnits_add {m u : Nat} (last : Nat) (hm : Significant m) (hlt : m < 2 ^ (53 + last))
    (hu : 2 ^ last < 2 * u) : m < roundedUnits (m + u) 1 := by
  have hpos := Nat.two_pow_pos last
  by_cases hpower : 2 ^ (m + u).log2 ≤ m
  · -- the sum has as many bits, so that both are multiples of its last one
    have hpowerPos := Nat.two_pow_pos (m + u).log2
    have hne : m ≠ 0 := by omega
    have hlog : (m + u).log2 = m.log2 :=
      Nat.le_antisymm ((Nat.le_log2 hne).mpr hpower) (log2_le_log2 (Nat.le_add_right ..))
    have hbits : m.log2 < 53 + last := (Nat.log2_lt hne).mpr hlt
    have hplace : 2 ^ (m.log2 - 52) ≤ 2 ^ last := Nat.pow_le_pow_right (by decide) (by omega)
    have hplacePos := Nat.two_pow_pos (m.log2 - 52)
    obtain ⟨c, hc⟩ := hm
    rw [Nat.pow_eq] at hc
    have hup : c < nearest (m + u) (2 ^ (m.log2 - 52)) := by
      refine lt_nearest hplacePos ?_
      calc (2 * c + 1) * 2 ^ (m.log2 - 52) = 2 * (2 ^ (m.log2 - 52) * c) + 2 ^ (m.log2 - 52) := by ring
        _ = 2 * m + 2 ^ (m.log2 - 52) := by rw [← hc]
        _ < 2 * (m + u) := by omega
    calc m = c * 2 ^ (m.log2 - 52) := by rw [Nat.mul_comm]; exact hc
      _ < nearest (m + u) (2 ^ (m.log2 - 52)) * 2 ^ (m.log2 - 52) :=
        Nat.mul_lt_mul_of_pos_right hup hplacePos
      _ = roundedUnits (m + u) 1 := (roundedUnits_one (by rw [hlog])).symm
  · -- a power of two lies between the number and the sum
    refine Nat.lt_of_lt_of_le (Nat.lt_of_not_le hpower) ?_
    refine le_roundedUnits Nat.one_pos (significant_two_pow _) ?_
    rw [Nat.mul_one]
    exact Nat.log2_self_le (by omega)

theorem dvd_roundedUnits {n exponent : Nat} (h : 2 ^ exponent ∣ n) :
    2 ^ exponent ∣ roundedUnits n 1 := by
  obtain ⟨c, rfl⟩ := h
  simp only [roundedUnits, Nat.one_mul, Nat.pow_eq]
  generalize lastBit _ 1 = last
  rcases Nat.le_total last exponent with hle | hle
  · obtain ⟨more, rfl⟩ := Nat.exists_eq_add_of_le hle
    have hwhole : 2 ^ (last + more) * c = (2 ^ more * c) * 2 ^ last := by
      rw [Nat.pow_add]
      ring
    rw [hwhole, nearest_mul _ _ (Nat.two_pow_pos last), ← hwhole]
    exact Nat.dvd_mul_right _ _
  · exact Nat.dvd_trans (Nat.pow_dvd_pow 2 hle) (Nat.dvd_mul_left _ _)

end Magnitude

-- ---------------------------------------------------------------------------
-- Signed numbers of units
-- ---------------------------------------------------------------------------

/-- The numbers of units that finite doubles have. -/
def Representable (units : Int) : Prop :=
  Significant units.natAbs ∧ units.natAbs < unitsLimit

theorem representable_zero : Representable 0 := ⟨Nat.dvd_zero _, unitsLimit_pos⟩

theorem Representable.neg (h : Representable units) : Representable (-units) := by
  unfold Representable at h ⊢
  rwa [Int.natAbs_neg]

theorem pow_lt_unitsLimit {exponent : Nat} (h : exponent < 2098) : 2 ^ exponent < unitsLimit := by
  unfold unitsLimit
  generalize 2098 = limit at h ⊢
  exact Nat.pow_lt_pow_right (by decide) h

theorem representable_mul_pow {k : Int} {exponent : Nat} (hk : k.natAbs ≤ 2 ^ 53)
    (he : exponent < 2045) : Representable (k * (2 ^ exponent : Nat)) := by
  constructor
  · rw [Int.natAbs_mul, Int.natAbs_natCast]
    exact significant_mul_pow hk
  · rw [Int.natAbs_mul, Int.natAbs_natCast]
    calc k.natAbs * 2 ^ exponent ≤ 2 ^ 53 * 2 ^ exponent := Nat.mul_le_mul_right _ hk
      _ = 2 ^ (53 + exponent) := by rw [Nat.pow_add]
      _ < unitsLimit := pow_lt_unitsLimit (by omega)

namespace Binary64

def signed (negative : Bool) (n : Nat) : Int := if negative then -(n : Int) else n

theorem natAbs_signed (negative : Bool) (n : Nat) : (signed negative n).natAbs = n := by
  cases negative <;> simp [signed]

@[simp] theorem units_finite (negative : Bool) (magnitude : Magnitude) :
    (finite negative magnitude).units = signed negative magnitude.units := by
  cases negative <;> rfl

theorem representable_units (x : Binary64) : Representable x.units := by
  cases x with
  | nan => exact representable_zero
  | infinite negative => exact representable_zero
  | finite negative magnitude =>
    rw [units_finite, Representable, natAbs_signed]
    exact ⟨magnitude.significant, magnitude.units_lt⟩

structure Within (x : Binary64) (lo hi : Int) : Prop where
  finite : x.isFinite = true
  ge : lo ≤ x.units
  le : x.units ≤ hi

theorem within_units {x : Binary64} (h : x.isFinite = true) : x.Within x.units x.units :=
  ⟨h, Int.le_refl _, Int.le_refl _⟩

theorem Within.cases {x : Binary64} (h : x.Within lo hi) :
    ∃ negative magnitude, x = .finite negative magnitude := by
  cases x with
  | nan => cases h.finite
  | infinite negative => cases h.finite
  | finite negative magnitude => exact ⟨negative, magnitude, rfl⟩

@[simp] theorem units_neg (x : Binary64) : x.neg.units = -x.units := by
  cases x with
  | nan => rfl
  | infinite negative => rfl
  | finite negative magnitude => cases negative <;> simp [neg, signed]

theorem Within.neg {x : Binary64} (h : x.Within lo hi) : x.neg.Within (-hi) (-lo) := by
  obtain ⟨negative, magnitude, rfl⟩ := h.cases
  refine ⟨rfl, ?_, ?_⟩
  · rw [units_neg]
    exact Int.neg_le_neg h.le
  · rw [units_neg]
    exact Int.neg_le_neg h.ge

-- ---------------------------------------------------------------------------
-- Rounded quotients
-- ---------------------------------------------------------------------------

theorem ofRatio_true (n d : Nat) : ofRatio true n d = (ofRatio false n d).neg := by
  unfold ofRatio
  cases Magnitude.ofRatio? n d <;> rfl

theorem ofRatio_false_within {n d : Nat} {lo hi : Int} (hd : 0 < d) (hlo : Representable lo)
    (hhi : Representable hi) (hge : lo * d ≤ n) (hle : n ≤ hi * d) :
    (ofRatio false n d).Within lo hi := by
  have hd' : (0 : Int) < d := by exact_mod_cast hd
  have hpos : 0 ≤ hi := by
    by_contra hneg
    have hlt : hi * d < 0 := Int.mul_neg_of_neg_of_pos (by omega) hd'
    omega
  obtain ⟨above, rfl⟩ := Int.eq_ofNat_of_zero_le hpos
  have hup : Magnitude.roundedUnits n d ≤ above :=
    Magnitude.roundedUnits_le hd hhi.1 (by exact_mod_cast hle)
  have hlt : Magnitude.roundedUnits n d < unitsLimit := Nat.lt_of_le_of_lt hup hhi.2
  have heq : ofRatio false n d = .finite false
      ⟨Magnitude.roundedUnits n d, Magnitude.significant_roundedUnits n d, hlt⟩ := by
    simp [ofRatio, Magnitude.ofRatio?, hlt]
  rw [heq]
  refine ⟨rfl, ?_, by simpa [signed] using hup⟩
  by_cases hneg : lo ≤ 0
  · simp only [units_finite, signed]
    exact Int.le_trans hneg (Int.natCast_nonneg _)
  · obtain ⟨below, rfl⟩ := Int.eq_ofNat_of_zero_le (a := lo) (by omega)
    have := Magnitude.le_roundedUnits hd hlo.1 (by exact_mod_cast hge)
    simpa [signed] using this

theorem ofRatio_within {negative : Bool} {n d : Nat} {lo hi : Int} (hd : 0 < d)
    (hlo : Representable lo) (hhi : Representable hi) (hge : lo * d ≤ signed negative n)
    (hle : signed negative n ≤ hi * d) : (ofRatio negative n d).Within lo hi := by
  cases negative with
  | false => exact ofRatio_false_within hd hlo hhi hge hle
  | true =>
    simp only [signed, reduceIte] at hge hle
    have h := ofRatio_false_within (n := n) hd hhi.neg hlo.neg (by linarith) (by linarith)
    simpa [ofRatio_true] using h.neg

theorem roundedUnits_lt {negative : Bool} {n d : Nat} (h : (ofRatio negative n d).isFinite = true) :
    Magnitude.roundedUnits n d < unitsLimit := by
  by_contra hnot
  simp [ofRatio, Magnitude.ofRatio?, hnot, isFinite] at h

theorem units_ofRatio {negative : Bool} {n d : Nat} (h : Magnitude.roundedUnits n d < unitsLimit) :
    (ofRatio negative n d).units = signed negative (Magnitude.roundedUnits n d) := by
  simp [ofRatio, Magnitude.ofRatio?, h, units_finite]

theorem ofRatio_le {negative : Bool} {n d : Nat} {hi : Int} (hd : 0 < d) (hhi : Representable hi)
    (hle : signed negative n ≤ hi * d) : ofRatio negative n d = .infinite true ∨
      (ofRatio negative n d).isFinite = true ∧ (ofRatio negative n d).units ≤ hi := by
  cases negative with
  | false =>
    have hwithin := ofRatio_false_within hd representable_zero hhi (by omega) hle
    exact .inr ⟨hwithin.finite, hwithin.le⟩
  | true =>
    by_cases hlt : Magnitude.roundedUnits n d < unitsLimit
    · refine .inr ⟨by simp [ofRatio, Magnitude.ofRatio?, hlt, isFinite], ?_⟩
      rw [units_ofRatio hlt]
      simp only [signed, reduceIte] at hle ⊢
      by_cases hnonneg : 0 ≤ hi
      · omega
      · obtain ⟨m, hm⟩ := Int.eq_ofNat_of_zero_le (a := -hi) (by omega)
        have hsignificant : Significant m := by
          have := hhi.neg.1
          rwa [hm] at this
        have hquotient : m * d ≤ n := by
          have : -hi * d ≤ n := by linarith
          rw [hm] at this
          exact_mod_cast this
        have := Magnitude.le_roundedUnits hd hsignificant hquotient
        omega
    · exact .inl (by simp [ofRatio, Magnitude.ofRatio?, hlt])

-- ---------------------------------------------------------------------------
-- Operations
-- ---------------------------------------------------------------------------

theorem add_finite (negative negative' : Bool) (a b : Magnitude) :
    finite negative a + finite negative' b =
      if (finite negative a).units + (finite negative' b).units = 0 then
        .finite (negative && negative') .zero
      else ofRatio ((finite negative a).units + (finite negative' b).units < 0)
        ((finite negative a).units + (finite negative' b).units).natAbs 1 := rfl

theorem signed_natAbs (i : Int) : signed (i < 0) i.natAbs = i := by
  by_cases h : i < 0
  · simp only [signed, h, decide_true, reduceIte]
    omega
  · simp only [signed, h, decide_false, Bool.false_eq_true, reduceIte]
    omega

theorem add_within {x y : Binary64} (hx : x.Within a b) (hy : y.Within c d)
    (hlo : Representable lo) (hhi : Representable hi) (hge : lo ≤ a + c) (hle : b + d ≤ hi) :
    (x + y).Within lo hi := by
  have hxy : lo ≤ x.units + y.units ∧ x.units + y.units ≤ hi := by
    have := hx.ge
    have := hx.le
    have := hy.ge
    have := hy.le
    omega
  obtain ⟨nx, mx, rfl⟩ := hx.cases
  obtain ⟨ny, my, rfl⟩ := hy.cases
  rw [add_finite]
  split
  · next hz =>
    rw [hz] at hxy
    have hu : (finite (nx && ny) .zero).units = 0 := by cases nx && ny <;> rfl
    exact ⟨rfl, by rw [hu]; exact hxy.1, by rw [hu]; exact hxy.2⟩
  · apply ofRatio_within Nat.one_pos hlo hhi
    · rw [signed_natAbs]
      simpa using hxy.1
    · rw [signed_natAbs]
      simpa using hxy.2

theorem sub_within {x y : Binary64} (hx : x.Within a b) (hy : y.Within c d)
    (hlo : Representable lo) (hhi : Representable hi) (hge : lo ≤ a - d) (hle : b - c ≤ hi) :
    (x - y).Within lo hi :=
  add_within hx hy.neg hlo hhi (by omega) (by omega)

theorem sub_le_of_pos {x y : Binary64} (hx : x.isFinite = true) (hy : y.isFinite = true)
    (hpos : 0 ≤ y.units) : x - y = .infinite true ∨
      (x - y).isFinite = true ∧ (x - y).units ≤ x.units := by
  have hrepresentable := x.representable_units
  have hdiff : x.units + y.neg.units ≤ x.units := by
    rw [units_neg]
    omega
  change x + y.neg = _ ∨ (x + y.neg).isFinite = true ∧ (x + y.neg).units ≤ x.units
  obtain ⟨nx, mx, rfl⟩ := (within_units hx).cases
  obtain ⟨ny, my, hneg⟩ := (within_units hy).neg.cases
  rw [hneg] at hdiff ⊢
  rw [add_finite]
  split
  · next hz =>
    refine .inr ⟨rfl, ?_⟩
    have hzero : (finite (nx && ny) .zero).units = 0 := by cases nx && ny <;> rfl
    omega
  · refine ofRatio_le Nat.one_pos hrepresentable ?_
    rw [signed_natAbs]
    omega

theorem signed_mul (negative negative' : Bool) (m n : Nat) :
    signed (negative ^^ negative') (m * n) = signed negative m * signed negative' n := by
  cases negative <;> cases negative' <;> simp [signed]

/-- The bounds of a product are numbers of units, and so is the product before rounding. -/
theorem mul_within {x y : Binary64} (hx : x.isFinite = true) (hy : y.isFinite = true)
    (hlo : Representable lo) (hhi : Representable hi) (hge : lo * unitsPerOne ≤ x.units * y.units)
    (hle : x.units * y.units ≤ hi * unitsPerOne) : (x * y).Within lo hi := by
  obtain ⟨nx, mx, rfl⟩ := (within_units hx).cases
  obtain ⟨ny, my, rfl⟩ := (within_units hy).cases
  simp only [units_finite, ← signed_mul] at hge hle
  exact ofRatio_within unitsPerOne_pos hlo hhi hge hle

theorem div_within {x y : Binary64} (hx : x.isFinite = true) (hy : y.isFinite = true)
    (hpos : 0 < y.units) (hlo : Representable lo) (hhi : Representable hi)
    (hge : lo * y.units ≤ x.units * unitsPerOne) (hle : x.units * unitsPerOne ≤ hi * y.units) :
    (x / y).Within lo hi := by
  obtain ⟨nx, mx, rfl⟩ := (within_units hx).cases
  obtain ⟨ny, my, rfl⟩ := (within_units hy).cases
  cases ny with
  | true =>
    simp only [units_finite, signed, reduceIte] at hpos
    omega
  | false =>
    simp only [units_finite, signed, Bool.false_eq_true, reduceIte] at hpos hge hle
    have hne : my.units ≠ 0 := by omega
    have hquot : finite nx mx / finite false my =
        ofRatio nx (mx.units * unitsPerOne) my.units := by
      show div _ _ = _
      simp [div, hne]
    have hn : signed nx (mx.units * unitsPerOne) = signed nx mx.units * unitsPerOne := by
      cases nx <;> simp [signed]
    rw [hquot]
    apply ofRatio_within (by omega) hlo hhi
    · rw [hn]
      exact hge
    · rw [hn]
      exact hle

theorem div_units_mono {x y w : Binary64} (hx : x.isFinite = true) (hy : y.isFinite = true)
    (hw : w.isFinite = true) (hpos : 0 < w.units) (hnonneg : 0 ≤ x.units) (hle : x.units ≤ y.units)
    (hquot : (y / w).isFinite = true) : (x / w).units ≤ (y / w).units := by
  obtain ⟨nx, mx, rfl⟩ := (within_units hx).cases
  obtain ⟨ny, my, rfl⟩ := (within_units hy).cases
  obtain ⟨nw, mw, rfl⟩ := (within_units hw).cases
  cases nw with
  | true =>
    simp only [units_finite, signed, reduceIte] at hpos
    omega
  | false =>
    simp only [units_finite, signed, Bool.false_eq_true, reduceIte] at hpos hnonneg hle
    have hne : mw.units ≠ 0 := by omega
    have hdiv (negative : Bool) (m : Magnitude) : finite negative m / finite false mw =
        ofRatio negative (m.units * unitsPerOne) mw.units := by
      show div _ _ = _
      simp [div, hne]
    have hunits : mx.units ≤ my.units := by
      cases nx <;> cases ny <;> simp at hnonneg hle <;> omega
    have hmono : Magnitude.roundedUnits (mx.units * unitsPerOne) mw.units ≤
        Magnitude.roundedUnits (my.units * unitsPerOne) mw.units :=
      Magnitude.roundedUnits_mono (by omega) (Nat.mul_le_mul_right _ hunits)
    have hzero {m : Magnitude} (hm : m.units = 0) :
        Magnitude.roundedUnits (m.units * unitsPerOne) mw.units = 0 := by
      rw [hm, Nat.zero_mul, Magnitude.roundedUnits_zero (by omega)]
    rw [hdiv] at hquot
    have hlimit := roundedUnits_lt hquot
    rw [hdiv, hdiv, units_ofRatio hlimit, units_ofRatio (Nat.lt_of_le_of_lt hmono hlimit)]
    cases nx with
    | true =>
      have hm : mx.units = 0 := by
        simp only [reduceIte] at hnonneg
        omega
      rw [hzero hm]
      cases ny with
      | true =>
        have hm' : my.units = 0 := by
          simp only [reduceIte] at hle
          omega
        rw [hzero hm']
      | false => simp [signed]
    | false =>
      cases ny with
      | true =>
        have hm' : my.units = 0 := by
          simp only [reduceIte] at hle
          omega
        rw [hzero hm'] at hmono ⊢
        simpa [signed] using hmono
      | false => simpa [signed] using hmono

theorem neg_div {x w : Binary64} (hx : x.isFinite = true) (hw : w.isFinite = true)
    (hpos : 0 < w.units) : x.neg / w = (x / w).neg := by
  obtain ⟨nx, mx, rfl⟩ := (within_units hx).cases
  obtain ⟨nw, mw, rfl⟩ := (within_units hw).cases
  cases nw with
  | true =>
    simp only [units_finite, signed, reduceIte] at hpos
    omega
  | false =>
    simp only [units_finite, signed, Bool.false_eq_true, reduceIte] at hpos
    have hne : mw.units ≠ 0 := by omega
    have hdiv (negative : Bool) : finite negative mx / finite false mw =
        ofRatio negative (mx.units * unitsPerOne) mw.units := by
      show div _ _ = _
      simp [div, hne]
    have hneg : (finite nx mx).neg = finite (!nx) mx := rfl
    have hnegneg (y : Binary64) : y.neg.neg = y := by cases y <;> simp [neg]
    rw [hneg, hdiv, hdiv]
    cases nx <;> simp [ofRatio_true, hnegneg]

theorem div_units_le {x y w : Binary64} (hx : x.isFinite = true) (hy : y.isFinite = true)
    (hw : w.isFinite = true) (hpos : 0 < w.units) (hle : x.units ≤ y.units)
    (hquotx : (x / w).isFinite = true) (hquoty : (y / w).isFinite = true) :
    (x / w).units ≤ (y / w).units := by
  -- Below zero the quotients are those of the negated numbers, in the other order.
  have hbelow {y : Binary64} (hy : y.isFinite = true) (hle : x.units ≤ y.units)
      (hnonpos : y.units ≤ 0) : (x / w).units ≤ (y / w).units := by
    have hfinite {z : Binary64} (hz : z.isFinite = true) : z.neg.isFinite = true :=
      (within_units hz).neg.finite
    have hquot := hfinite hquotx
    rw [← neg_div hx hw hpos] at hquot
    have hmono := div_units_mono (hfinite hy) (hfinite hx) hw hpos (by rw [units_neg]; omega)
      (by rw [units_neg, units_neg]; omega) hquot
    rw [neg_div hx hw hpos, neg_div hy hw hpos, units_neg,
      units_neg] at hmono
    omega
  by_cases hnonneg : 0 ≤ x.units
  · exact div_units_mono hx hy hw hpos hnonneg hle hquoty
  · by_cases hnonpos : y.units ≤ 0
    · exact hbelow hy hle hnonpos
    · have hzero : zero.units = 0 := rfl
      calc (x / w).units ≤ (zero / w).units := hbelow rfl (by omega) (by omega)
        _ ≤ (y / w).units := div_units_mono rfl hy hw hpos (by omega) (by omega) hquoty

end Binary64

end SlidingTally
