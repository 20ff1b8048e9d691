import Mathlib.Data.List.Nodup
import SlidingTally.Proofs.Number.Sums
import SlidingTally.Proofs.Window.Grid
import SlidingTally.Proofs.Window.Keys
import SlidingTally.Window.Counter

/-!
# The buckets of a window

Between whole ids the count of `ids?` comes to an end and visits every id once, so the keys of a
window are those of the buckets that it covers. Main statements: `InReach.ids?_isSome`,
`keys_between` and `keys?_covered`.
-/

namespace SlidingTally.Bucket

open Binary64

-- ---------------------------------------------------------------------------
-- Counting up
-- ---------------------------------------------------------------------------

def countUp : (n : Nat) → (first : Int) → List Int
  | 0, _ => []
  | n + 1, first => first :: countUp n (first + 1)

def between (first last : Int) : List Int := countUp (last + 1 - first).toNat first

theorem mem_countUp : k ∈ countUp n first ↔ first ≤ k ∧ k < first + n := by
  induction n generalizing first with
  | zero =>
    simp only [countUp, List.not_mem_nil, false_iff]
    omega
  | succ n ih =>
    simp only [countUp, List.mem_cons, ih]
    push_cast
    omega

theorem pairwise_countUp : (countUp n first).Pairwise (· < ·) := by
  induction n generalizing first with
  | zero => exact .nil
  | succ n ih =>
    refine List.pairwise_cons.mpr ⟨fun k hk => ?_, ih⟩
    have := (mem_countUp.mp hk).1
    omega

theorem countUp_succ (n : Nat) (first : Int) :
    countUp (n + 1) first = countUp n first ++ [first + n] := by
  induction n generalizing first with
  | zero => simp [countUp]
  | succ n ih =>
    rw [countUp, ih (first + 1), countUp, List.cons_append]
    push_cast
    rw [Int.add_assoc, Int.add_comm 1]

theorem length_between (h : first ≤ last) :
    ((between first last).length : Int) = last - first + 1 := by
  have hlength : ∀ (n : Nat) (first : Int), (countUp n first).length = n := by
    intro n
    induction n with
    | zero => exact fun _ => rfl
    | succ n ih => exact fun first => congrArg (· + 1) (ih (first + 1))
  rw [between, hlength]
  omega

theorem mem_between : k ∈ between first last ↔ first ≤ k ∧ k ≤ last := by
  rw [between, mem_countUp]
  omega

theorem pairwise_between : (between first last).Pairwise (· < ·) := pairwise_countUp

theorem nodup_between : (between first last).Nodup := pairwise_between.imp Int.ne_of_lt

theorem getLast?_between (h : first ≤ last) : (between first last).getLast? = some last := by
  obtain ⟨n, hn⟩ := Int.eq_ofNat_of_zero_le (Int.sub_nonneg_of_le h)
  have hcount : (last + 1 - first).toNat = n + 1 := by omega
  rw [between, hcount, countUp_succ, List.getLast?_concat]
  exact congrArg some (by omega)

theorem between_of_lt (h : last < first) : between first last = [] := by
  unfold between
  rw [Int.toNat_of_nonpos (by omega)]
  rfl

theorem between_of_le (h : first ≤ last) : between first last = first :: between (first + 1) last := by
  unfold between
  rw [show (last + 1 - first).toNat = (last + 1 - (first + 1)).toNat + 1 by omega]
  rfl

/-- The count visits the integers that are left, with fuel for one step more. -/
theorem idsFrom_whole {last id : Binary64} {a b : Int} (hlast : last.Is b) (hid : id.Is a)
    (ha : a.natAbs ≤ 2 ^ 52 + 1) (hb : b.natAbs ≤ 2 ^ 52) (hfuel : (b + 1 - a).toNat < fuel) :
    ∃ ids, idsFrom last fuel id = some ids ∧ List.Forall₂ Is ids (between a b) := by
  induction fuel generalizing id a with
  | zero => omega
  | succ fuel ih =>
    rw [idsFrom]
    by_cases hab : a ≤ b
    · have hnext := hid.add one_is (by omega)
      have hne : id + 1 ≠ id := by
        intro h
        rw [h] at hnext
        have := hnext.eq hid
        omega
      obtain ⟨ids, hids, hall⟩ := ih hnext (by omega) (by omega)
      rw [if_pos ((hid.le_iff hlast).mpr hab), if_neg hne, hids, between_of_le hab]
      exact ⟨id :: ids, rfl, .cons hid hall⟩
    · rw [if_neg (by rw [hid.le_iff hlast]; exact hab), between_of_lt (by omega)]
      exact ⟨[], rfl, .nil⟩

theorem steps_of_is {range : BucketRange} (hfirst : range.first.Is a) (hlast : range.last.Is b) :
    steps range = 2 * (b - a).toNat + 5 := by
  have hdiff : range.last.units - range.first.units = (b - a) * unitsPerOne := by
    rw [hfirst.2, hlast.2, Int.sub_mul]
  have hdiv : ((b - a) * unitsPerOne).toNat / unitsPerOne = (b - a).toNat := by
    by_cases h : 0 ≤ b - a
    · obtain ⟨n, hn⟩ := Int.eq_ofNat_of_zero_le h
      rw [hn, ← Int.natCast_mul, Int.toNat_natCast, Int.toNat_natCast,
        Nat.mul_div_cancel _ unitsPerOne_pos]
    · have hneg : (b - a) * unitsPerOne ≤ 0 :=
        Int.mul_nonpos_of_nonpos_of_nonneg (by omega) (Int.le_of_lt unitsPerOne_cast_pos)
      rw [Int.toNat_of_nonpos hneg, Int.toNat_of_nonpos (by omega), Nat.zero_div]
  rw [steps, hdiff, hdiv]

theorem ids?_whole (range : BucketRange) (hfirst : range.first.Is a) (hlast : range.last.Is b)
    (ha : a.natAbs ≤ 2 ^ 52) (hb : b.natAbs ≤ 2 ^ 52) :
    ∃ ids, ids? range = some ids ∧ List.Forall₂ Is ids (between a b) := by
  apply idsFrom_whole hlast hfirst (by omega) hb
  rw [steps_of_is hfirst hlast]
  omega

-- ---------------------------------------------------------------------------
-- Any window and reading
-- ---------------------------------------------------------------------------

theorem floor_is_ediv {x : Binary64} {a b : Int}
    (h : x.Within (a * unitsPerOne) (b * unitsPerOne)) (ha : a.natAbs ≤ 2 ^ 52)
    (hb : b.natAbs ≤ 2 ^ 52) :
    a ≤ x.units / unitsPerOne ∧ x.units / unitsPerOne ≤ b ∧ x.floor.Is (x.units / unitsPerOne) := by
  have hpos := unitsPerOne_cast_pos
  have hlow : a ≤ x.units / unitsPerOne := (Int.le_ediv_iff_mul_le hpos).mpr h.ge
  have hhigh : x.units / unitsPerOne ≤ b := by
    have := Int.ediv_le_ediv hpos h.le
    rwa [Int.mul_ediv_cancel _ (Int.ne_of_gt hpos)] at this
  refine ⟨hlow, hhigh, ?_⟩
  apply Binary64.floor_is (by omega) (Int.ediv_mul_le _ (Int.ne_of_gt hpos)) _ h.finite
  exact Int.lt_ediv_add_one_mul_self _ hpos

theorem div_width_within {x : Binary64} {lo hi : Int} (window : Binary64) (h : x.Within lo hi)
    (hlo : Representable lo) (hhi : Representable hi) (hnonpos : lo ≤ 0) (hnonneg : 0 ≤ hi) :
    (x / width window).Within lo hi := by
  obtain ⟨width, hwidth, hpos, -⟩ := width_is window
  exact h.div hwidth (by omega) hlo hhi hnonpos hnonneg

/-- Clock readings up to 10^14 milliseconds and windows up to 10^9 seconds. -/
structure InReach (now window : Binary64) : Prop where
  now_ge : Binary64.zero.le now = true
  now_le : now.le (ofNat (10 ^ 14)) = true
  window_pos : Binary64.zero.lt window = true
  window_le : window.le (ofNat (10 ^ 9)) = true

theorem InReach.ids?_between (h : InReach now window) :
    ∃ a b ids, -(10 ^ 9) ≤ a ∧ a ≤ b ∧ b ≤ 10 ^ 11 ∧ (range (now / 1000) window).first.Is a ∧
      (range (now / 1000) window).last.Is b ∧ ids? (range (now / 1000) window) = some ids ∧
        List.Forall₂ Is ids (between a b) := by
  have hunits := unitsPerOne_cast_pos
  have hnow := within_of_le zero_is.1 (is_ofNat (by decide)).1 h.now_ge h.now_le
  rw [zero_is.2, (is_ofNat (by decide)).2] at hnow
  have hlt := (lt_iff.mp h.window_pos)
  have hwin := within_of_le zero_is.1 (is_ofNat (by decide)).1
    (le_iff.mpr ⟨hlt.1, hlt.2.1, Int.le_of_lt hlt.2.2⟩) h.window_le
  rw [zero_is.2, (is_ofNat (by decide)).2] at hwin
  have hsec : (now / 1000).Within (0 * unitsPerOne) ((10 ^ 11 : Nat) * unitsPerOne) := by
    apply div_within hnow.finite thousand_is.1
    · rw [thousand_is.2]
      exact Int.mul_pos (by decide) hunits
    · exact representable_whole (by decide)
    · exact representable_whole (by decide)
    · rw [Int.zero_mul, Int.zero_mul]
      have := hnow.ge
      rw [Int.zero_mul] at this
      exact Int.mul_nonneg this (Int.le_of_lt hunits)
    · rw [thousand_is.2]
      calc now.units * unitsPerOne ≤ (10 ^ 14 : Nat) * unitsPerOne * unitsPerOne := by
            have := hnow.le
            gcongr
        _ = (10 ^ 11 : Nat) * unitsPerOne * (1000 * unitsPerOne) := by push_cast; ring
  have hfirst : (now / 1000 - window).Within (-(10 ^ 9 : Nat) * unitsPerOne)
      ((10 ^ 11 : Nat) * unitsPerOne) := by
    apply sub_within hsec hwin
    · exact representable_whole (by decide)
    · exact representable_whole (by decide)
    · rw [Int.zero_mul, Int.neg_mul]
      omega
    · rw [Int.zero_mul]
      omega
  have hfirst' := div_width_within window hfirst (representable_whole (by decide))
    (representable_whole (by decide)) (by omega) (by omega)
  have hsec' := div_width_within window hsec (representable_whole (by decide))
    (representable_whole (by decide)) (by omega) (by omega)
  obtain ⟨hage, hale, ha⟩ := floor_is_ediv hfirst' (by decide) (by decide)
  obtain ⟨hbge, hble, hb⟩ := floor_is_ediv hsec' (by decide) (by decide)
  have hmono : (now / 1000 - window).units ≤ (now / 1000).units :=
    (sub_within (within_units hsec.finite) hwin
      (representable_whole (k := -(10 ^ 9 : Nat)) (by decide)) (now / 1000).representable_units
      (by have := hsec.ge; omega) (by omega)).le
  obtain ⟨ids, hids, hall⟩ := ids?_whole (range (now / 1000) window) ha hb (by omega)
    (by omega)
  have hab := div_units_le hfirst.finite hsec.finite (width_pos window).1 (width_pos window).2 hmono
    hfirst'.finite hsec'.finite
  exact ⟨_, _, ids, hage, Int.ediv_le_ediv hunits hab, hble, ha, hb, hids, hall⟩

theorem InReach.ids?_isSome (h : InReach now window) :
    (ids? (range (now / 1000) window)).isSome = true := by
  obtain ⟨_, _, ids, -, -, -, -, -, hids, -⟩ := h.ids?_between
  rw [hids]
  rfl

-- ---------------------------------------------------------------------------
-- Keys
-- ---------------------------------------------------------------------------

theorem map_eq_of_forall₂ {R : α → β → Prop} {f : α → γ} {g : β → γ} {xs : List α} {ys : List β}
    (h : List.Forall₂ R xs ys) (hfg : ∀ x y, R x y → y ∈ ys → f x = g y) :
    xs.map f = ys.map g := by
  induction h with
  | nil => rfl
  | cons hxy hrest ih =>
    rw [List.map_cons, List.map_cons, hfg _ _ hxy List.mem_cons_self]
    rw [ih fun x y hR hmem => hfg x y hR (List.mem_cons_of_mem _ hmem)]

section
variable {window : Nat} {ids : List Int}

theorem map_wholeKey (hw : window < 2 ^ 53) (hids : ∀ k ∈ ids, k.natAbs < 2 ^ 53) (name : String) :
    ids.map (wholeKey name window) = ids.map fun k => key name (ofNat window) (ofInt k) := by
  refine List.map_congr_left fun k hk => ?_
  have hsmall := hids k hk
  exact (key_of_is (is_ofInt (Nat.le_of_lt hsmall)) hsmall hw name).symm

theorem nodup_map_wholeKey (h : ids.Nodup) (name : String) : (ids.map (wholeKey name window)).Nodup :=
  h.map fun _ _ heq => (wholeKey_inj heq).2.2

theorem keys_between {range : BucketRange} (hfirst : range.first.Is a) (hlast : range.last.Is b)
    (ha : a.natAbs ≤ 2 ^ 52) (hb : b.natAbs ≤ 2 ^ 52) (hw : window < 2 ^ 53) (name : String) :
    ∃ ids, ids? range = some ids ∧
      ids.map (key name (ofNat window)) = (between a b).map (wholeKey name window) := by
  obtain ⟨ids, hids, hall⟩ := ids?_whole range hfirst hlast ha hb
  refine ⟨ids, hids, map_eq_of_forall₂ hall fun x k hx hk => ?_⟩
  obtain ⟨hge, hle⟩ := mem_between.mp hk
  exact key_of_is hx (by omega) hw name

end

/-- The buckets of a window that ends at a number of milliseconds. -/
def covered (window milliseconds : Nat) : List Int :=
  between (wholeId window (milliseconds - 1000 * window)) (wholeId window milliseconds)

theorem nodup_covered : (covered window milliseconds).Nodup := nodup_between

theorem getLast?_covered (window milliseconds : Nat) :
    (covered window milliseconds).getLast? = some (wholeId window milliseconds) :=
  getLast?_between (wholeId_mono (by omega))

theorem natAbs_wholeId_le (window : Nat) (milliseconds : Int) :
    (wholeId window milliseconds).natAbs ≤ milliseconds.natAbs :=
  Int.natAbs_ediv_le_natAbs _ _

theorem natAbs_of_mem_covered {window t : Nat} (ht : t ≤ 10 ^ 14) (hw : window ≤ 10 ^ 9)
    (h : k ∈ covered window t) : k.natAbs ≤ 10 ^ 15 := by
  have hfirst := natAbs_wholeId_le window (t - 1000 * window)
  have hlast := natAbs_wholeId_le window t
  obtain ⟨hge, hle⟩ := mem_between.mp h
  omega

theorem InReach.le_of_ofNat {window : Nat} (h : InReach now (ofNat window)) : window ≤ 10 ^ 9 := by
  by_contra hlt
  have hlast : (ofNat (10 ^ 9)).lt (ofNat window) = true := ofNat_lt_ofNat (by decide) (by omega)
  have hle := (le_iff.mp h.window_le).2.2
  have hgt := (lt_iff.mp hlast).2.2
  omega

theorem InReach.keys?_between {window : Nat} (h : InReach now (ofNat window)) (name : String) :
    ∃ a b, a ≤ b ∧ (range (now / 1000) (ofNat window)).first.Is a ∧
      (range (now / 1000) (ofNat window)).last.Is b ∧
      keys? name (ofNat window) (range (now / 1000) (ofNat window)) =
        some ((between a b).map fun k => key name (ofNat window) (ofInt k)) ∧
      ((between a b).map fun k => key name (ofNat window) (ofInt k)).Nodup := by
  obtain ⟨a, b, -, hlow, hab, hhigh, hfirst, hlast, -⟩ := h.ids?_between
  have hw : window < 2 ^ 53 := Nat.lt_of_le_of_lt h.le_of_ofNat (by decide)
  have hsmall (k : Int) (hk : k ∈ between a b) : k.natAbs < 2 ^ 53 := by
    obtain ⟨hge, hle⟩ := mem_between.mp hk
    omega
  obtain ⟨ids, hids, hkeys⟩ := keys_between hfirst hlast (by omega) (by omega) hw name
  rw [map_wholeKey hw hsmall name] at hkeys
  refine ⟨a, b, hab, hfirst, hlast, ?_, ?_⟩
  · rw [keys?, hids, Option.map_some, hkeys]
  · rw [← map_wholeKey hw hsmall name]
    exact nodup_map_wholeKey nodup_between name

theorem keys_covered {window t : Nat} (ht : t ≤ 10 ^ 14) (hw : window ≤ 10 ^ 9) (name : String) :
    ∃ ids, ids? (range (ofNat t / 1000) (ofNat window)) = some ids ∧
      ids.map (key name (ofNat window)) = (covered window t).map (wholeKey name window) := by
  have hfirst := natAbs_wholeId_le window (t - 1000 * window)
  have hlast := natAbs_wholeId_le window t
  exact keys_between (id_sub_is ht hw) (id_is ht hw) (by omega) (by omega) (by omega) name

theorem keys?_covered {window t : Nat} (ht : t ≤ 10 ^ 14) (hw : window ≤ 10 ^ 9) (name : String) :
    keys? name (ofNat window) (range (Counter.seconds (ofNat t)) (ofNat window)) =
      some ((covered window t).map (wholeKey name window)) := by
  obtain ⟨ids, hids, hkeys⟩ := keys_covered ht hw name
  rw [← hkeys]
  exact congrArg (Option.map _) hids

end SlidingTally.Bucket
