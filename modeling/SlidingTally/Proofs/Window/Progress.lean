import SlidingTally.Proofs.Number.Successor
import SlidingTally.Proofs.Window.Enumeration

/-!
# Whether the count of ids gets on

The ids of a range are counted in doubles. Far from zero one more is no more, and a count that comes
to such an id before the last one never ends. Main statements: `BucketRange.ends_iff_bounds` and
`count_ends_iff`.
-/

namespace SlidingTally

open Binary64

namespace BucketRange

def reached (range : BucketRange) (n : Nat) : Binary64 := (· + 1)^[n] range.first

/-- The count passes the last id at some step. -/
def Ends (range : BucketRange) : Prop := ∃ n, (range.reached n).le range.last = false

/-- As long as the count has not passed the last id, each step leads to a larger one. -/
def Advances (range : BucketRange) : Prop :=
  ∀ n, (range.reached n).le range.last = true → (range.reached n).lt (range.reached (n + 1)) = true

theorem reached_succ (range : BucketRange) (n : Nat) :
    range.reached (n + 1) = range.reached n + 1 :=
  Function.iterate_succ_apply' ..

-- ---------------------------------------------------------------------------
-- Between whole ids
-- ---------------------------------------------------------------------------

section
variable {range : BucketRange} {a b : Int} (hfirst : range.first.Is a) (hlast : range.last.Is b)

include hfirst in
theorem reached_is (n : Nat) : (range.reached n).Is (nextWhole^[n] a) := by
  induction n with
  | zero => exact hfirst
  | succ n ih =>
    rw [reached_succ, Function.iterate_succ_apply']
    exact ih.add_one

include hfirst hlast

theorem ends_iff_passes : range.Ends ↔ ∃ n, b < nextWhole^[n] a := by
  refine exists_congr fun n => ?_
  rw [← Bool.not_eq_true, (reached_is hfirst n).le_iff hlast, Int.not_le]

theorem advances_iff_grows :
    range.Advances ↔ ∀ n, nextWhole^[n] a ≤ b → nextWhole^[n] a < nextWhole^[n + 1] a := by
  refine forall_congr' fun n => ?_
  rw [(reached_is hfirst n).le_iff hlast, (reached_is hfirst n).lt_iff (reached_is hfirst (n + 1))]

theorem ends_iff_advances : range.Ends ↔ range.Advances := by
  rw [ends_iff_passes hfirst hlast, advances_iff_grows hfirst hlast]
  constructor
  · rintro ⟨m, hm⟩ n hn
    refine lt_of_le_of_ne (nextWhole_iterate_mono a (Nat.le_succ n)) fun hfixed => ?_
    -- An id that is its own successor is all that comes after it.
    have hstays (k : Nat) : nextWhole^[n + k] a = nextWhole^[n] a := by
      rw [Function.iterate_succ_apply'] at hfixed
      rw [Nat.add_comm, Function.iterate_add_apply, Function.iterate_fixed hfixed.symm]
    have hle : nextWhole^[m] a ≤ nextWhole^[n + m] a :=
      nextWhole_iterate_mono a (Nat.le_add_left m n)
    rw [hstays] at hle
    omega
  · intro hgrows
    by_contra hnone
    have hbelow (n : Nat) : nextWhole^[n] a ≤ b := Int.not_lt.mp fun h => hnone ⟨n, h⟩
    have hfar (n : Nat) : a + n ≤ nextWhole^[n] a := by
      induction n with
      | zero => simp
      | succ n ih =>
        have := hgrows n (hbelow n)
        omega
    have := hfar (b - a + 1).toNat
    have := hbelow (b - a + 1).toNat
    omega

/-- Beyond 2^53 only a range of one id can be counted, and only if one more is more than it. -/
theorem ends_iff_bounds (hab : a ≤ b) :
    range.Ends ↔ -(2 ^ 53 + 2) ≤ a ∧ b < 2 ^ 53 ∨ a = b ∧ a % 4 = 2 := by
  have heven (n : Nat) := (reached_is hfirst n).even
  have hfirstEven := hfirst.even
  have hlastEven := hlast.even
  constructor
  · intro hends
    obtain ⟨n, hn⟩ := (ends_iff_passes hfirst hlast).mp hends
    by_contra hbounds
    -- The first multiple of four on the way that one more does not change.
    obtain ⟨stop, hfour, hlarge, hge, hle⟩ : ∃ stop : Int, stop % 4 = 0 ∧
        (stop < -(2 ^ 53) ∨ 2 ^ 53 ≤ stop) ∧ a ≤ stop ∧ stop ≤ b := by
      by_cases hstart : -(2 ^ 53 + 2) ≤ a ∧ a ≤ 2 ^ 53
      · exact ⟨2 ^ 53, by omega, by omega, by omega, by omega⟩
      · by_cases hmod : a % 4 = 0
        · exact ⟨a, hmod, by omega, by omega, hab⟩
        · exact ⟨a + 2, by omega, by omega, by omega, by omega⟩
    have := nextWhole_iterate_le hfour hlarge hge n
    omega
  · intro hbounds
    rw [ends_iff_advances hfirst hlast, advances_iff_grows hfirst hlast]
    intro n hn
    have hge : a ≤ nextWhole^[n] a := nextWhole_iterate_mono a (Nat.zero_le n)
    rw [Function.iterate_succ_apply', lt_nextWhole_iff]
    have := heven n
    generalize nextWhole^[n] a = k at *
    omega

end

-- ---------------------------------------------------------------------------
-- From minus infinity
-- ---------------------------------------------------------------------------

section
variable {range : BucketRange} (hfirst : range.first = .infinite true)
include hfirst

theorem reached_of_infinite (n : Nat) : range.reached n = .infinite true := by
  rw [reached, hfirst]
  exact Function.iterate_fixed (infinite_add_one true) n

theorem not_ends_of_infinite (hlast : range.last.isFinite = true) : ¬range.Ends := by
  rintro ⟨n, hn⟩
  rw [reached_of_infinite hfirst] at hn
  obtain ⟨negative, magnitude, heq⟩ := (within_units hlast).cases
  rw [heq] at hn
  cases hn

theorem not_advances_of_infinite (hlast : range.last.isFinite = true) : ¬range.Advances := by
  intro hadvances
  obtain ⟨negative, magnitude, heq⟩ := (within_units hlast).cases
  have hstep := hadvances 0 (by rw [reached_of_infinite hfirst, heq]; rfl)
  rw [reached_of_infinite hfirst, reached_of_infinite hfirst] at hstep
  cases hstep

end

end BucketRange

-- ---------------------------------------------------------------------------
-- The ids of a window
-- ---------------------------------------------------------------------------

namespace Bucket

theorem isSome_idsFrom_iff {last id : Binary64} {a b : Int} {fuel : Nat} (hlast : last.Is b)
    (hid : id.Is a) (hfuel : (b + 1 - a).toNat < fuel) :
    (idsFrom last fuel id).isSome = true ↔ ∃ n, b < nextWhole^[n] a := by
  induction fuel generalizing id a with
  | zero => omega
  | succ fuel ih =>
    rw [idsFrom]
    by_cases hab : a ≤ b
    · rw [if_pos ((hid.le_iff hlast).mpr hab)]
      by_cases hfixed : nextWhole a = a
      · rw [if_pos (hid.add_one_eq_iff.mpr hfixed)]
        refine iff_of_false (by decide) ?_
        rintro ⟨n, hn⟩
        rw [Function.iterate_fixed hfixed] at hn
        omega
      · have hgrows := le_nextWhole a
        rw [if_neg (mt hid.add_one_eq_iff.mp hfixed), Option.isSome_map,
          ih hid.add_one (by omega)]
        constructor
        · rintro ⟨n, hn⟩
          exact ⟨n + 1, hn⟩
        · rintro ⟨n, hn⟩
          cases n with
          | zero => exact absurd hn (Int.not_lt.mpr hab)
          | succ n => exact ⟨n, hn⟩
    · rw [if_neg (by rw [hid.le_iff hlast]; exact hab)]
      exact iff_of_true rfl ⟨0, Int.not_le.mp hab⟩

theorem isSome_ids?_iff {range : BucketRange} {a b : Int} (hfirst : range.first.Is a)
    (hlast : range.last.Is b) : (ids? range).isSome = true ↔ range.Ends := by
  rw [range.ends_iff_passes hfirst hlast, ids?, steps_of_is hfirst hlast]
  exact isSome_idsFrom_iff hlast hfirst (by omega)

theorem ids?_of_infinite {range : BucketRange} (hfirst : range.first = .infinite true)
    (hlast : range.last.isFinite = true) : ids? range = none := by
  obtain ⟨negative, magnitude, heq⟩ := (within_units hlast).cases
  unfold ids? steps
  rw [idsFrom, hfirst, heq, infinite_add_one, if_pos rfl]
  exact if_pos rfl

theorem div_width_isFinite {x : Binary64} (window : Binary64) (hx : x.isFinite = true) :
    (x / width window).isFinite = true := by
  obtain ⟨width, hwidth, hpos, -⟩ := width_is window
  exact isFinite_div hx hwidth (by omega)

theorem range_is {seconds window : Binary64} (hseconds : seconds.isFinite = true)
    (hwindow : window.isFinite = true) (hpos : 0 ≤ window.units) :
    ∃ b, (range seconds window).last.Is b ∧ ((range seconds window).first = .infinite true ∨
      ∃ a ≤ b, (range seconds window).first.Is a) := by
  have hquotient := div_width_isFinite window hseconds
  refine ⟨_, is_floor hquotient, ?_⟩
  rcases sub_le_of_pos hseconds hwindow hpos with hinfinite | ⟨hfinite, hle⟩
  · left
    obtain ⟨hwidth, hwidthPos⟩ := width_pos window
    obtain ⟨negative, magnitude, heq⟩ := (within_units hwidth).cases
    rw [heq] at hwidthPos
    show Bucket.id (seconds - window) (width window) = _
    rw [Bucket.id, hinfinite, heq]
    cases negative with
    | true =>
      simp only [units_finite, signed, reduceIte] at hwidthPos
      omega
    | false => rfl
  · right
    have hstart := div_width_isFinite window hfinite
    refine ⟨_, ?_, is_floor hstart⟩
    exact Int.ediv_le_ediv unitsPerOne_cast_pos
      (div_units_le hfinite hseconds (width_pos window).1 (width_pos window).2 hle hstart hquotient)

theorem ends_iff_compares {range : BucketRange} {b : Int} (hlast : range.last.Is b)
    (hfirst : range.first = .infinite true ∨ ∃ a ≤ b, range.first.Is a) :
    ((ids? range).isSome = true ↔ range.Ends) ∧ (range.Ends ↔ range.Advances) ∧
    (range.Ends ↔
      (ofInt (-(2 ^ 53 + 2))).le range.first = true ∧ range.last.lt (ofNat (2 ^ 53)) = true ∨
        range.first.eq range.last = true ∧ range.first.lt (range.first + 1) = true) := by
  rcases hfirst with hinfinite | ⟨a, hab, hfirst⟩
  · obtain ⟨negative, magnitude, heq⟩ := hlast.within.cases
    obtain ⟨negative', magnitude', heq'⟩ := is_least.within.cases
    have hends := BucketRange.not_ends_of_infinite hinfinite hlast.1
    refine ⟨iff_of_false ?_ hends,
      iff_of_false hends (BucketRange.not_advances_of_infinite hinfinite hlast.1),
      iff_of_false hends ?_⟩
    · rw [ids?_of_infinite hinfinite hlast.1]
      decide
    · rw [hinfinite, heq, heq']
      rintro (⟨hle, -⟩ | ⟨heq, -⟩)
      · cases hle
      · cases heq
  · refine ⟨isSome_ids?_iff hfirst hlast, BucketRange.ends_iff_advances hfirst hlast, ?_⟩
    rw [BucketRange.ends_iff_bounds hfirst hlast hab, is_least.le_iff hfirst,
      hlast.lt_iff (is_ofNat (by decide)), hfirst.eq_iff hlast, hfirst.lt_add_one_iff,
      lt_nextWhole_iff]
    have := hfirst.even
    push_cast
    omega

-- ---------------------------------------------------------------------------
-- Dates
-- ---------------------------------------------------------------------------

theorem width_eq_or (window : Binary64) : (width window).Is 600 ∨ window.le 86400 = true := by
  have hday (n : Nat) (hn : n ≤ 86400) (h : window.le (ofNat n) = true) : window.le 86400 = true :=
    have hbound := (is_ofNat (by omega)).le_iff (is_ofNat (n := 86400) (by decide))
    Binary64.le_trans h (hbound.mpr (by omega))
  unfold width
  split
  · exact .inr (hday 300 (by decide) ‹_›)
  · split
    · exact .inr (hday 3600 (by decide) ‹_›)
    · split
      · exact .inr ‹_›
      · exact .inl (is_ofNat (n := 600) (by decide))

theorem seconds_within {now : Binary64} {n : Nat} (hn : n ≤ 2 ^ 53)
    (h : now.Within (-(1000 * n : Nat) * unitsPerOne) ((1000 * n : Nat) * unitsPerOne)) :
    (Counter.seconds now).Within (-(n : Int) * unitsPerOne) (n * unitsPerOne) := by
  have hunits := unitsPerOne_cast_pos
  have hge := h.ge
  have hle := h.le
  apply div_within h.finite thousand_is.1
  · rw [thousand_is.2]
    exact Int.mul_pos (by decide) hunits
  · exact representable_whole (by omega)
  · exact representable_whole (by omega)
  · rw [thousand_is.2]
    calc -(n : Int) * unitsPerOne * (1000 * unitsPerOne)
        = -(1000 * n : Nat) * unitsPerOne * unitsPerOne := by push_cast; ring
      _ ≤ now.units * unitsPerOne := by gcongr
  · rw [thousand_is.2]
    calc now.units * unitsPerOne ≤ (1000 * n : Nat) * unitsPerOne * unitsPerOne := by gcongr
      _ = n * unitsPerOne * (1000 * unitsPerOne) := by push_cast; ring

theorem representable_mul_five_pow {k : Int} (n : Nat) (hk : (k * 5 ^ n).natAbs ≤ 2 ^ 53)
    (hn : n < 900) : Representable (k * 10 ^ n * unitsPerOne) := by
  obtain ⟨exponent, hexponent, hone⟩ := unitsPerOne_eq
  have hrepresentable : Representable (k * 5 ^ n * (2 ^ (n + exponent) : Nat)) :=
    representable_mul_pow hk (by omega)
  rw [hone]
  convert hrepresentable using 1
  have hten : (10 : Int) ^ n = 5 ^ n * 2 ^ n := by rw [← mul_pow]; rfl
  push_cast
  rw [hten]
  ring

theorem longest_is : (ofNat (5 * 10 ^ 18)).Is (5 * 10 ^ 18) :=
  is_ofInt_of_representable (representable_mul_five_pow (k := 5) 18 (by decide) (by decide))

theorem first_within {seconds window : Binary64}
    (hseconds : seconds.Within (-(10 ^ 13) * unitsPerOne) (10 ^ 13 * unitsPerOne))
    (hwindow : window.Within 0 (5 * 10 ^ 18 * unitsPerOne)) :
    ((seconds - window) / width window).Within (-(85 * 10 ^ 14) * unitsPerOne)
      (10 ^ 13 * unitsPerOne) := by
  have hunits := unitsPerOne_cast_pos
  have hnear : Representable (10 ^ 13 * unitsPerOne) := representable_whole (k := 10 ^ 13) (by decide)
  have hfar : Representable (-(85 * 10 ^ 14) * unitsPerOne) :=
    representable_whole (k := -(85 * 10 ^ 14)) (by decide)
  rcases width_eq_or window with hwidth | hday
  · have hlong : Representable (-(51 * 10 ^ 17) * unitsPerOne) := by
      have hrepresentable := representable_mul_five_pow (k := -51) 17 (by decide) (by decide)
      rwa [Int.neg_mul] at hrepresentable
    have hdiff : (seconds - window).Within (-(51 * 10 ^ 17) * unitsPerOne) (10 ^ 13 * unitsPerOne) :=
      sub_within hseconds hwindow hlong hnear (by linarith) (by linarith)
    have hge := hdiff.ge
    have hle := hdiff.le
    apply div_within hdiff.finite hwidth.1 (width_pos window).2 hfar hnear
    · rw [hwidth.2]
      calc -(85 * 10 ^ 14) * (unitsPerOne : Int) * (600 * unitsPerOne)
          = -(51 * 10 ^ 17) * unitsPerOne * unitsPerOne := by ring
        _ ≤ (seconds - window).units * unitsPerOne := by gcongr
    · rw [hwidth.2]
      calc (seconds - window).units * unitsPerOne ≤ 10 ^ 13 * unitsPerOne * unitsPerOne := by gcongr
        _ ≤ 10 ^ 13 * unitsPerOne * (600 * unitsPerOne) := by
            have : (0 : Int) ≤ unitsPerOne * unitsPerOne := by positivity
            linarith
  · have hle : window.units ≤ 86400 * unitsPerOne := by
      have h86400 : (86400 : Binary64).Is 86400 := is_ofNat (n := 86400) (by decide)
      have := (le_iff.mp hday).2.2
      rwa [rank_of_isFinite hwindow.finite, rank_of_isFinite h86400.1, h86400.2] at this
    have hshort : window.Within 0 (86400 * unitsPerOne) := ⟨hwindow.finite, hwindow.ge, hle⟩
    have hdiff : (seconds - window).Within (-(85 * 10 ^ 14) * unitsPerOne) (10 ^ 13 * unitsPerOne) :=
      sub_within hseconds hshort hfar hnear (by linarith) (by linarith)
    exact div_width_within window hdiff hfar hnear (by linarith) (by linarith)

theorem ends_of_dates {now window : Binary64}
    (hnow : now.Within (-(864 * 10 ^ 13) * unitsPerOne) (864 * 10 ^ 13 * unitsPerOne))
    (hwindow : window.Within 0 (5 * 10 ^ 18 * unitsPerOne)) :
    (range (Counter.seconds now) window).Ends := by
  have hunits := unitsPerOne_cast_pos
  have hdates : now.Within (-(1000 * 10 ^ 13 : Nat) * unitsPerOne)
      ((1000 * 10 ^ 13 : Nat) * unitsPerOne) := by
    refine ⟨hnow.finite, Int.le_trans ?_ hnow.ge, Int.le_trans hnow.le ?_⟩
    · gcongr
      decide
    · gcongr
      decide
  have hseconds := seconds_within (n := 10 ^ 13) (by decide) hdates
  have hquotient := first_within (by exact_mod_cast hseconds) hwindow
  have hquotient' := div_width_within window hseconds (representable_whole (by decide))
    (representable_whole (by decide)) (by omega) (by omega)
  have hfirst := is_floor hquotient.finite
  have hlast := is_floor hquotient'.finite
  have hge := (Int.le_ediv_iff_mul_le hunits).mpr hquotient.ge
  have hle := Int.ediv_le_of_le_mul hunits hquotient'.le
  by_cases hab : ((Counter.seconds now - window) / width window).units / (unitsPerOne : Int) ≤
      (Counter.seconds now / width window).units / unitsPerOne
  · exact (BucketRange.ends_iff_bounds hfirst hlast hab).mpr (.inl ⟨by omega, by omega⟩)
  · exact (BucketRange.ends_iff_passes hfirst hlast).mpr ⟨0, Int.not_le.mp hab⟩

end Bucket

/-- The keys of a window can be listed if and only if each step of the count leads to a larger id.
So they can as long as the ids stay where doubles count by one, as they do for dates and windows of
up to 5 * 10^18 seconds, and beyond that only in a range of a single id that one more leads away
from. -/
theorem count_ends_iff {now window : Binary64} {asked : Value} (hnow : now.isFinite = true)
    (hasked : Counter.validWindow? asked = some window) (name : String) :
    let range := Bucket.range (Counter.seconds now) window
    ((Bucket.keys? name window range).isSome = true ↔ range.Ends) ∧
    (range.Ends ↔ range.Advances) ∧
    (range.Ends ↔
      (ofInt (-(2 ^ 53 + 2))).le range.first = true ∧ range.last.lt (ofNat (2 ^ 53)) = true ∨
        range.first.eq range.last = true ∧ range.first.lt (range.first + 1) = true) ∧
    ((ofInt (-(864 * 10 ^ 13))).le now = true → now.le (ofNat (864 * 10 ^ 13)) = true →
      window.le (ofNat (5 * 10 ^ 18)) = true → range.Ends) := by
  intro range
  have hseconds : (Counter.seconds now).isFinite = true :=
    isFinite_div hnow (is_ofNat (n := 1000) (by decide)) (by decide)
  obtain ⟨-, hvalid⟩ := Option.filter_eq_some_iff.mp hasked
  rw [Bool.and_eq_true, Binary64.lt_iff] at hvalid
  obtain ⟨hwindow, -, -, hpos⟩ := hvalid
  rw [rank_of_isFinite rfl, rank_of_isFinite hwindow] at hpos
  obtain ⟨b, hlast, hfirst⟩ := Bucket.range_is hseconds hwindow (Int.le_of_lt hpos)
  obtain ⟨hids, hadvances, hbounds⟩ := Bucket.ends_iff_compares hlast hfirst
  refine ⟨by rw [Bucket.keys?, Option.isSome_map, hids], hadvances, hbounds, fun hge hle hshort => ?_⟩
  have hearliest : (ofInt (-(864 * 10 ^ 13))).Is (-(864 * 10 ^ 13)) := is_ofInt (by decide)
  have hlatest : (ofNat (864 * 10 ^ 13)).Is (864 * 10 ^ 13 : Nat) := is_ofNat (by decide)
  have hdates := within_of_le hearliest.1 hlatest.1 hge hle
  rw [hearliest.2, hlatest.2] at hdates
  have hlongest := (le_iff.mp hshort).2.2
  rw [rank_of_isFinite hwindow, rank_of_isFinite Bucket.longest_is.1, Bucket.longest_is.2] at hlongest
  exact Bucket.ends_of_dates (by exact_mod_cast hdates) ⟨hwindow, Int.le_of_lt hpos, hlongest⟩

/-- The ids of a minute are counted to the end. -/
theorem count_ends_minute : let range := Bucket.range (Counter.seconds zero) (ofNat 60)
    range.Advances ∧ (Bucket.keys? "a" (ofNat 60) range).isSome = true := by
  intro range
  have hasked : Counter.validWindow? (.number (ofNat 60)) = some (ofNat 60) := by decide +kernel
  obtain ⟨hkeys, hadvances, hbounds, -⟩ := count_ends_iff (show zero.isFinite = true from rfl) hasked "a"
  have hends : range.Ends := hbounds.mpr (.inl ⟨by decide +kernel, by decide +kernel⟩)
  exact ⟨hadvances.mp hends, hkeys.mpr hends⟩

/-- A window of 10^300 seconds is valid, and the count stays at its first id. -/
theorem count_endless : Counter.validWindow? (.number (ofNat (10 ^ 300))) = some (ofNat (10 ^ 300)) ∧
    let range := Bucket.range (Counter.seconds zero) (ofNat (10 ^ 300))
    (∀ n, range.reached n = range.first ∧ (range.reached n).le range.last = true) ∧
      ¬range.Advances ∧ Bucket.keys? "a" (ofNat (10 ^ 300)) range = none := by
  refine ⟨by decide +kernel, ?_⟩
  intro range
  have hfixed : range.first + 1 = range.first := by decide +kernel
  have hle : range.first.le range.last = true := by decide +kernel
  have hreached (n : Nat) : range.reached n = range.first := Function.iterate_fixed hfixed n
  refine ⟨fun n => ⟨hreached n, by rw [hreached]; exact hle⟩, fun hadvances => ?_, by decide +kernel⟩
  have hstep := hadvances 0 (by rw [hreached]; exact hle)
  rw [hreached, hreached] at hstep
  have hsame : range.first.lt range.first = false := by decide +kernel
  rw [hsame] at hstep
  cases hstep

end SlidingTally
