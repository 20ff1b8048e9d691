import Mathlib.Algebra.BigOperators.Group.List.Basic
import SlidingTally.Proofs.Number.Whole

/-!
# Sums of doubles

A sum of doubles that are not negative is at least each of its terms, however it is rounded and
also when it becomes infinite. A sum of integers is exact as long as the absolute values do not
pass 2^53, and the same in any order then. Main statements: `le_foldl_add`, `foldl_ofNat` and
`foldl_ofInt`.
-/

namespace SlidingTally.Binary64

theorem rank_zero : zero.rank = 0 := rfl

theorem rank_le_unitsLimit (x : Binary64) : x.rank ≤ unitsLimit := by
  have h := x.natAbs_units_lt
  cases x with
  | nan => exact Int.natCast_nonneg _
  | infinite negative =>
    cases negative
    · exact Int.le_refl _
    · show -(unitsLimit : Int) ≤ unitsLimit
      omega
  | finite negative magnitude =>
    show (finite negative magnitude).units ≤ unitsLimit
    omega

theorem rank_ofRatio (n d : Nat) :
    (ofRatio false n d).rank = Min.min (Magnitude.roundedUnits n d : Int) unitsLimit := by
  unfold ofRatio Magnitude.ofRatio?
  split
  · rename_i magnitude hmagnitude
    split at hmagnitude
    · rename_i hlt
      cases hmagnitude
      rw [rank_of_isFinite rfl, units_finite]
      exact (Int.min_eq_left (Int.ofNat_le.mpr (Nat.le_of_lt hlt))).symm
    · cases hmagnitude
  · rename_i hnone
    split at hnone
    · cases hnone
    · show (unitsLimit : Int) = _
      exact (Int.min_eq_right (by omega)).symm

theorem le_ofRatio {m n d : Nat} (hd : 0 < d) (hm : Significant m) (hlt : m < unitsLimit)
    (h : m * d ≤ n) :
    (ofRatio false n d).isNaN = false ∧ (m : Int) ≤ (ofRatio false n d).rank := by
  have hle := Magnitude.le_roundedUnits hd hm h
  refine ⟨(ofRatio_false_boundedBelow n d).isNaN, ?_⟩
  rw [rank_ofRatio]
  omega

theorem nonneg_cases {x : Binary64} (h : zero.le x = true) :
    x = .infinite false ∨ x.isFinite = true ∧ 0 ≤ x.units := by
  obtain ⟨-, hnan, hrank⟩ := le_iff.mp h
  have hpos := unitsLimit_pos
  rw [rank_zero] at hrank
  cases x with
  | nan => cases hnan
  | infinite negative =>
    cases negative with
    | false => exact .inl rfl
    | true =>
      have : (0 : Int) ≤ -(unitsLimit : Int) := hrank
      omega
  | finite negative magnitude => exact .inr ⟨rfl, hrank⟩

theorem add_of_pos {x y : Binary64} (hx : x.isFinite = true) (hy : y.isFinite = true)
    (hpos : 0 < x.units + y.units) : x + y = ofRatio false (x.units + y.units).natAbs 1 := by
  obtain ⟨nx, mx, rfl⟩ := (within_units hx).cases
  obtain ⟨ny, my, rfl⟩ := (within_units hy).cases
  rw [add_finite, if_neg (Int.ne_of_gt hpos), decide_eq_false (by omega)]

/-- Rounding keeps a sum from below a number that needs no rounding, also when it becomes infinite. -/
theorem le_rank_add {x y : Binary64} {m : Nat} (hx : x.isFinite = true) (hy : y.isFinite = true)
    (hm : Significant m) (hlt : m < unitsLimit) (h : m ≤ x.units + y.units) :
    (x + y).isNaN = false ∧ m ≤ (x + y).rank := by
  by_cases hpos : 0 < x.units + y.units
  · rw [add_of_pos hx hy hpos]
    exact le_ofRatio Nat.one_pos hm hlt (by omega)
  · obtain ⟨nx, mx, rfl⟩ := (within_units hx).cases
    obtain ⟨ny, my, rfl⟩ := (within_units hy).cases
    have hzero : (finite (nx && ny) .zero).units = 0 := by cases nx && ny <;> rfl
    rw [add_finite, if_pos (by omega), rank_of_isFinite rfl]
    exact ⟨rfl, by omega⟩

theorem le_add_right {x y : Binary64} (hx : zero.le x = true) (hy : zero.le y = true) :
    x.le (x + y) = true := by
  obtain ⟨-, hnan, -⟩ := le_iff.mp hx
  rcases nonneg_cases hx with rfl | ⟨hxf, hxu⟩
  · rcases nonneg_cases hy with rfl | ⟨hyf, -⟩
    · rfl
    · obtain ⟨ny, my, rfl⟩ := (within_units hyf).cases
      rfl
  · rcases nonneg_cases hy with rfl | ⟨hyf, hyu⟩
    · obtain ⟨nx, mx, rfl⟩ := (within_units hxf).cases
      exact le_iff.mpr ⟨hnan, rfl, rank_le_unitsLimit _⟩
    · obtain ⟨hsignificant, hlt⟩ := x.representable_units
      obtain ⟨hsum, hle⟩ := le_rank_add hxf hyf hsignificant hlt (by omega)
      refine le_iff.mpr ⟨hnan, hsum, ?_⟩
      rw [rank_of_isFinite hxf]
      omega

theorem nonneg_add {x y : Binary64} (hx : zero.le x = true) (hy : zero.le y = true) :
    zero.le (x + y) = true :=
  le_trans hx (le_add_right hx hy)

theorem add_comm (x y : Binary64) : x + y = y + x := by
  show x.add y = y.add x
  cases x with
  | nan => cases y <;> rfl
  | infinite negative =>
    cases y with
    | nan => rfl
    | infinite negative' => cases negative <;> cases negative' <;> rfl
    | finite negative' magnitude' => rfl
  | finite negative magnitude =>
    cases y with
    | nan => rfl
    | infinite negative' => rfl
    | finite negative' magnitude' => simp only [add, Int.add_comm, Bool.and_comm]

theorem le_add_left {x y : Binary64} (hx : zero.le x = true) (hy : zero.le y = true) :
    y.le (x + y) = true := by
  rw [add_comm]
  exact le_add_right hy hx

theorem ofNat_lt_ofNat {k n : Nat} (hk : k < 2 ^ 53) (h : k < n) :
    (ofNat k).lt (ofNat n) = true := by
  have hsign : decide ((n : Int) < 0) = false := decide_eq_false (by omega)
  have hn : ofNat n = ofRatio false (n * unitsPerOne) 1 := by
    show ofRatio (decide ((n : Int) < 0)) ((n : Int).natAbs * unitsPerOne) 1 = _
    rw [hsign, Int.natAbs_natCast]
  obtain ⟨hsignificant, hlt⟩ := representable_whole (k := (k + 1 : Nat)) (by omega)
  rw [Int.natAbs_mul, Int.natAbs_natCast, Int.natAbs_natCast] at hsignificant hlt
  have hbelow : (k + 1) * unitsPerOne * 1 ≤ n * unitsPerOne := by
    rw [Nat.mul_one]
    exact Nat.mul_le_mul_right unitsPerOne h
  obtain ⟨hnan, hrank⟩ := le_ofRatio Nat.one_pos hsignificant hlt hbelow
  have hfinite : (ofNat k).Is k := is_ofNat (by omega)
  refine lt_iff.mpr ⟨isNaN_of_isFinite hfinite.1, hn ▸ hnan, ?_⟩
  rw [rank_of_isFinite hfinite.1, hfinite.2, hn]
  refine Int.lt_of_lt_of_le ?_ hrank
  push_cast
  exact Int.mul_lt_mul_of_pos_right (by omega) unitsPerOne_cast_pos

theorem foldl_ofNat (ns : List Nat) (start : Nat) (h : start + ns.sum ≤ 2 ^ 53) :
    (ns.map ofNat).foldl (· + ·) (ofNat start) = ofNat (start + ns.sum) := by
  induction ns generalizing start with
  | nil => rw [List.map_nil, List.foldl_nil, List.sum_nil, Nat.add_zero]
  | cons n rest ih =>
    rw [List.sum_cons] at h
    rw [List.map_cons, List.foldl_cons, ofNat_add (by omega), ih _ (by omega), List.sum_cons,
      Nat.add_assoc]

def absUnits (xs : List Binary64) : Nat := (xs.map fun x => x.units.natAbs).sum

def SumsBelow (xs : List Binary64) : Prop :=
  (∀ x ∈ xs, x.isFinite = true) ∧ absUnits xs < 2 ^ 53 * unitsPerOne

def wholeSum (xs : List Binary64) : Int := (xs.map fun x => x.toInt?.getD 0).sum

@[simp] theorem absUnits_cons (x : Binary64) (rest : List Binary64) :
    absUnits (x :: rest) = x.units.natAbs + absUnits rest := by
  simp only [absUnits, List.map_cons, List.sum_cons]

@[simp] theorem wholeSum_cons (x : Binary64) (rest : List Binary64) :
    wholeSum (x :: rest) = x.toInt?.getD 0 + wholeSum rest := by
  simp only [wholeSum, List.map_cons, List.sum_cons]

theorem SumsBelow.perm {xs ys : List Binary64} (h : SumsBelow xs) (hperm : xs.Perm ys) :
    SumsBelow ys := by
  have hunits : absUnits ys = absUnits xs := (hperm.map _).sum_nat.symm
  refine ⟨fun y hmem => h.1 y (hperm.mem_iff.mpr hmem), ?_⟩
  rw [hunits]
  exact h.2

theorem wholeSum_perm {xs ys : List Binary64} (h : xs.Perm ys) : wholeSum xs = wholeSum ys :=
  (h.map _).sum_eq

/-- A sum of integers of either sign is exact as long as no partial sum can pass 2^53. -/
theorem foldl_ofInt {xs : List Binary64} {k : Int} (hxs : ∀ x ∈ xs, x.isInteger = true)
    (h : k.natAbs * unitsPerOne + absUnits xs < 2 ^ 53 * unitsPerOne) :
    xs.foldl (· + ·) (ofInt k) = ofInt (k + wholeSum xs) := by
  -- The bound counts what is summed so far, so that it still holds of the rest after a term is added.
  induction xs generalizing k with
  | nil => rw [List.foldl_nil, wholeSum, List.map_nil, List.sum_nil, Int.add_zero]
  | cons x rest ih =>
    obtain ⟨l, hl⟩ := exists_is (hxs x List.mem_cons_self)
    have hunits : absUnits (x :: rest) = l.natAbs * unitsPerOne + absUnits rest := by
      rw [absUnits_cons, hl.2, Int.natAbs_mul, Int.natAbs_natCast]
    have hsum : (k + l).natAbs * unitsPerOne ≤ k.natAbs * unitsPerOne + l.natAbs * unitsPerOne := by
      rw [← Nat.add_mul]
      exact Nat.mul_le_mul_right _ (Int.natAbs_add_le k l)
    have hsmall {m : Nat} (hm : m * unitsPerOne < 2 ^ 53 * unitsPerOne) : m ≤ 2 ^ 53 :=
      Nat.le_of_lt (Nat.lt_of_mul_lt_mul_right hm)
    rw [hunits] at h
    rw [List.foldl_cons, ofInt_add hl (hsmall (by omega)) (hsmall (by omega)),
      ih (fun other hmem => hxs other (List.mem_cons_of_mem _ hmem)) (by omega)]
    rw [wholeSum_cons, hl.toInt?, Option.getD_some, Int.add_assoc]

section
variable {xs : List Binary64} {start : Binary64}

theorem start_le_foldl_add (hxs : ∀ x ∈ xs, zero.le x = true) (hstart : zero.le start = true) :
    start.le (xs.foldl (· + ·) start) = true := by
  induction xs generalizing start with
  | nil => exact le_refl (le_iff.mp hstart).2.1
  | cons x rest ih =>
    have hx := hxs x List.mem_cons_self
    exact le_trans (le_add_right hstart hx)
      (ih (fun other hmem => hxs other (List.mem_cons_of_mem _ hmem)) (nonneg_add hstart hx))

theorem le_foldl_add (hxs : ∀ x ∈ xs, zero.le x = true) (hstart : zero.le start = true)
    (hmem : x ∈ xs) : x.le (xs.foldl (· + ·) start) = true := by
  induction xs generalizing start with
  | nil => cases hmem
  | cons first rest ih =>
    have hfirst := hxs first List.mem_cons_self
    have hrest (other : Binary64) (h : other ∈ rest) : zero.le other = true :=
      hxs other (List.mem_cons_of_mem _ h)
    rcases List.mem_cons.mp hmem with rfl | hmem
    · exact le_trans (le_add_left hstart hfirst)
        (start_le_foldl_add hrest (nonneg_add hstart hfirst))
    · exact ih hrest (nonneg_add hstart hfirst) hmem

end

end SlidingTally.Binary64
