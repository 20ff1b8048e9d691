import SlidingTally.Proofs.Number.Rounding

/-!
# The order of doubles

Doubles other than NaN are ordered by their `rank`, a number of units in which the infinities
lie beyond all finite doubles. `lt_iff` and `le_iff` reduce comparisons to integers.
-/

namespace SlidingTally.Binary64

def rank : Binary64 → Int
  | .infinite true => -unitsLimit
  | .infinite false => unitsLimit
  | x => x.units

theorem natAbs_units_lt (x : Binary64) : x.units.natAbs < unitsLimit := x.representable_units.2

theorem rank_of_isFinite {x : Binary64} (h : x.isFinite = true) : x.rank = x.units := by
  cases x with
  | nan => cases h
  | infinite negative => cases h
  | finite negative magnitude => rfl

theorem isNaN_of_isFinite {x : Binary64} (h : x.isFinite = true) : x.isNaN = false := by
  cases x with
  | nan => cases h
  | infinite negative => cases h
  | finite negative magnitude => rfl

theorem lt_iff {x y : Binary64} :
    x.lt y = true ↔ x.isNaN = false ∧ y.isNaN = false ∧ x.rank < y.rank := by
  have hx := x.natAbs_units_lt
  have hy := y.natAbs_units_lt
  have hpos := unitsLimit_pos
  cases x with
  | nan => simp [lt, isNaN]
  | infinite nx =>
    cases y with
    | nan => simp [lt, isNaN]
    | infinite ny =>
      cases nx <;> cases ny <;> simp [lt, isNaN, rank]
      omega
    | finite ny my => cases nx <;> simp [lt, isNaN, rank] at hy ⊢ <;> omega
  | finite nx mx =>
    cases y with
    | nan => simp [lt, isNaN]
    | infinite ny => cases ny <;> simp [lt, isNaN, rank] at hx ⊢ <;> omega
    | finite ny my => simp [lt, isNaN, rank]

theorem eq_iff {x y : Binary64} :
    x.eq y = true ↔ x.isNaN = false ∧ y.isNaN = false ∧ x.rank = y.rank := by
  have hx := x.natAbs_units_lt
  have hy := y.natAbs_units_lt
  have hpos := unitsLimit_pos
  cases x with
  | nan => simp [eq, isNaN]
  | infinite nx =>
    cases y with
    | nan => simp [eq, isNaN]
    | infinite ny => cases nx <;> cases ny <;> simp [eq, isNaN, rank] <;> omega
    | finite ny my => cases nx <;> simp [eq, isNaN, rank] at hy ⊢ <;> omega
  | finite nx mx =>
    cases y with
    | nan => simp [eq, isNaN]
    | infinite ny => cases ny <;> simp [eq, isNaN, rank] at hx ⊢ <;> omega
    | finite ny my => simp [eq, isNaN, rank]

theorem le_iff {x y : Binary64} :
    x.le y = true ↔ x.isNaN = false ∧ y.isNaN = false ∧ x.rank ≤ y.rank := by
  rw [le, Bool.or_eq_true, lt_iff, eq_iff]
  constructor
  · rintro (⟨hx, hy, h⟩ | ⟨hx, hy, h⟩)
    · exact ⟨hx, hy, by omega⟩
    · exact ⟨hx, hy, by omega⟩
  · rintro ⟨hx, hy, h⟩
    rcases Int.lt_or_eq_of_le h with h | h
    · exact .inl ⟨hx, hy, h⟩
    · exact .inr ⟨hx, hy, h⟩

theorem lt_iff_units {x y : Binary64} (hx : x.isFinite = true) (hy : y.isFinite = true) :
    x.lt y = true ↔ x.units < y.units := by
  rw [lt_iff, rank_of_isFinite hx, rank_of_isFinite hy]
  simp [isNaN_of_isFinite, hx, hy]

theorem eq_iff_units {x y : Binary64} (hx : x.isFinite = true) (hy : y.isFinite = true) :
    x.eq y = true ↔ x.units = y.units := by
  rw [eq_iff, rank_of_isFinite hx, rank_of_isFinite hy]
  simp [isNaN_of_isFinite, hx, hy]

theorem le_refl {x : Binary64} (h : x.isNaN = false) : x.le x = true :=
  le_iff.mpr ⟨h, h, Int.le_refl _⟩

theorem le_trans {x y z : Binary64} (hxy : x.le y = true) (hyz : y.le z = true) :
    x.le z = true := by
  obtain ⟨hx, -, hxy⟩ := le_iff.mp hxy
  obtain ⟨-, hz, hyz⟩ := le_iff.mp hyz
  exact le_iff.mpr ⟨hx, hz, Int.le_trans hxy hyz⟩

theorem lt_of_le_of_lt {x y z : Binary64} (hxy : x.le y = true) (hyz : y.lt z = true) :
    x.lt z = true := by
  obtain ⟨hx, -, hxy⟩ := le_iff.mp hxy
  obtain ⟨-, hz, hyz⟩ := lt_iff.mp hyz
  exact lt_iff.mpr ⟨hx, hz, Int.lt_of_le_of_lt hxy hyz⟩

theorem not_le {x y : Binary64} (hx : x.isNaN = false) (hy : y.isNaN = false) :
    x.le y = false ↔ y.lt x = true := by
  rw [← Bool.not_eq_true, le_iff, lt_iff]
  simp [hx, hy]

theorem Within.lt_within {x y : Binary64} (hx : x.Within a b) (hy : y.Within c d) (h : b < c) :
    x.lt y = true := by
  refine lt_iff.mpr ⟨isNaN_of_isFinite hx.finite, isNaN_of_isFinite hy.finite, ?_⟩
  rw [rank_of_isFinite hx.finite, rank_of_isFinite hy.finite]
  have := hx.le
  have := hy.ge
  omega

theorem Within.le_within {x y : Binary64} (hx : x.Within a b) (hy : y.Within c d) (h : b ≤ c) :
    x.le y = true := by
  refine le_iff.mpr ⟨isNaN_of_isFinite hx.finite, isNaN_of_isFinite hy.finite, ?_⟩
  rw [rank_of_isFinite hx.finite, rank_of_isFinite hy.finite]
  have := hx.le
  have := hy.ge
  omega

theorem within_of_le {x lo hi : Binary64} (hlo : lo.isFinite = true) (hhi : hi.isFinite = true)
    (hge : lo.le x = true) (hle : x.le hi = true) : x.Within lo.units hi.units := by
  obtain ⟨-, hx, hge⟩ := le_iff.mp hge
  obtain ⟨-, -, hle⟩ := le_iff.mp hle
  rw [rank_of_isFinite hlo] at hge
  rw [rank_of_isFinite hhi] at hle
  have hl := lo.natAbs_units_lt
  have hh := hi.natAbs_units_lt
  cases x with
  | nan => cases hx
  | infinite negative => cases negative <;> simp only [rank] at hge hle <;> omega
  | finite negative magnitude => exact ⟨rfl, hge, hle⟩

-- ---------------------------------------------------------------------------
-- Doubles that are not below all others
-- ---------------------------------------------------------------------------

structure BoundedBelow (x : Binary64) : Prop where
  isNaN : x.isNaN = false
  ne_infinite : x ≠ .infinite true

theorem boundedBelow_of_isFinite {x : Binary64} (h : x.isFinite = true) : x.BoundedBelow := by
  refine ⟨isNaN_of_isFinite h, ?_⟩
  rintro rfl
  cases h

theorem BoundedBelow.of_le {x y : Binary64} (hx : x.BoundedBelow) (h : x.le y = true) :
    y.BoundedBelow := by
  refine ⟨(le_iff.mp h).2.1, ?_⟩
  rintro rfl
  cases x with
  | nan => cases h
  | infinite negative =>
    cases negative
    · cases h
    · exact hx.ne_infinite rfl
  | finite negative magnitude => cases h

theorem ofRatio_false_boundedBelow (n d : Nat) : (ofRatio false n d).BoundedBelow := by
  unfold ofRatio
  split
  · exact ⟨rfl, nofun⟩
  · exact ⟨rfl, nofun⟩

theorem BoundedBelow.add {x y : Binary64} (hx : x.BoundedBelow) (hy : y.BoundedBelow) :
    (x + y).isNaN = false := by
  change (x.add y).isNaN = false
  cases x with
  | nan => exact hx.isNaN
  | infinite negative =>
    cases negative with
    | true => exact absurd rfl hx.ne_infinite
    | false =>
      cases y with
      | nan => exact hy.isNaN
      | infinite negative' =>
        cases negative' with
        | true => exact absurd rfl hy.ne_infinite
        | false => rfl
      | finite negative' magnitude' => rfl
  | finite negative magnitude =>
    cases y with
    | nan => exact hy.isNaN
    | infinite negative' => rfl
    | finite negative' magnitude' =>
      simp only [Binary64.add]
      split
      · rfl
      · unfold ofRatio
        split <;> rfl

theorem pos_cases {x : Binary64} (h : zero.lt x = true) :
    x = .infinite false ∨ ∃ magnitude, x = .finite false magnitude ∧ magnitude.units ≠ 0 := by
  cases x with
  | nan => cases h
  | infinite negative =>
    cases negative with
    | false => exact .inl rfl
    | true => cases h
  | finite negative magnitude =>
    have hunits : 0 < (Binary64.finite negative magnitude).units := by
      have hrank := (lt_iff.mp h).2.2
      rwa [rank_of_isFinite rfl, rank_of_isFinite rfl] at hrank
    cases negative with
    | true =>
      simp only [units] at hunits
      omega
    | false =>
      simp only [units] at hunits
      exact .inr ⟨magnitude, rfl, by omega⟩

theorem boundedBelow_mul {x y : Binary64} (hx : zero.lt x = true) (hy : zero.lt y = true) :
    (x * y).BoundedBelow := by
  change (x.mul y).BoundedBelow
  rcases pos_cases hx with rfl | ⟨a, rfl, ha⟩
  · rcases pos_cases hy with rfl | ⟨b, rfl, hb⟩
    · exact ⟨rfl, nofun⟩
    · have hzero : (b.units == 0) = false := by simpa using hb
      simp only [mul, isZero, hzero]
      exact ⟨rfl, nofun⟩
  · rcases pos_cases hy with rfl | ⟨b, rfl, hb⟩
    · have hzero : (a.units == 0) = false := by simpa using ha
      simp only [mul, isZero, hzero]
      exact ⟨rfl, nofun⟩
    · exact ofRatio_false_boundedBelow _ _

end SlidingTally.Binary64
