import SlidingTally.Proofs.Window.Enumeration

/-!
# The fan-out of a window

A read touches one key for each bucket of the window. Their number follows the length of the window
in steps: it is bounded while the width of a bucket grows with the window, and beyond a day, where
the width stays as it is, the number of keys grows instead. Main statement: `fanOut_bounds`.
-/

namespace SlidingTally

open Binary64 (ofNat)
open Bucket (wholeWidth wholeId covered)

namespace Bucket

/-- The most keys that a read of a window can touch: the widths that it takes to fill the window,
and one more as it seldom begins with a bucket. -/
def fanOut (window : Nat) : Nat := (window + wholeWidth window - 1) / wholeWidth window + 1

theorem fanOut_eq (window : Nat) : fanOut window = window / wholeWidth window + 1 +
    if window % wholeWidth window = 0 then 0 else 1 := by
  have hpos := (wholeWidth_bounds window).1
  have hsplit := Nat.div_add_mod' window (wholeWidth window)
  have hrest := Nat.mod_lt window hpos
  have hceil : (window + wholeWidth window - 1) / wholeWidth window =
      window / wholeWidth window + if window % wholeWidth window = 0 then 0 else 1 := by
    split
    · rw [Nat.add_zero]
      exact Nat.div_eq_of_lt_le (by omega) (by rw [Nat.add_mul]; omega)
    · exact Nat.div_eq_of_lt_le (by rw [Nat.add_mul]; omega)
        (by rw [Nat.add_mul, Nat.add_mul]; omega)
  rw [fanOut, hceil]
  omega

section
variable {window T : Nat}

/-- The window begins as many buckets before the current one as widths fit into it, and `extra` more:
none if what is left of the window by them is no longer than the current bucket is old, one if it
is. -/
theorem wholeId_sub_window (extra : Nat)
    (hge : 1000 * (window % wholeWidth window) ≤
      T % (1000 * wholeWidth window) + extra * (1000 * wholeWidth window))
    (hlt : T % (1000 * wholeWidth window) + extra * (1000 * wholeWidth window) <
      1000 * (window % wholeWidth window) + 1000 * wholeWidth window) :
    wholeId window (T - 1000 * window) =
      wholeId window T - (window / wholeWidth window + extra : Nat) := by
  have hwidth := (wholeWidth_bounds window).1
  zify at hge hlt
  refine ((Int.ediv_emod_unique (r := T % (1000 * wholeWidth window) +
    extra * (1000 * wholeWidth window) - 1000 * (window % wholeWidth window)) (by omega)).mpr
      ⟨?_, by omega, by omega⟩).1
  have hT := Int.emod_add_mul_ediv T (1000 * wholeWidth window)
  have hwindow := Int.emod_add_mul_ediv window (wholeWidth window)
  unfold wholeId
  push_cast
  linarith

theorem length_covered (window T : Nat) :
    (covered window T).length = window / wholeWidth window + 1 +
      if T % (1000 * wholeWidth window) < 1000 * (window % wholeWidth window) then 1 else 0 := by
  have hwidth := (wholeWidth_bounds window).1
  have hrest := Nat.mod_lt window hwidth
  have hage := Nat.mod_lt T (show 0 < 1000 * wholeWidth window by omega)
  have hlength : ((covered window T).length : Int) =
      wholeId window T - wholeId window (T - 1000 * window) + 1 :=
    length_between (wholeId_mono (by omega))
  split
  · rw [wholeId_sub_window 1 (by omega) (by omega)] at hlength
    omega
  · rw [wholeId_sub_window 0 (by omega) (by omega)] at hlength
    omega

theorem length_covered_le (window T : Nat) : (covered window T).length ≤ fanOut window := by
  rw [length_covered, fanOut_eq]
  split <;> split <;> omega

theorem length_covered_zero (window : Nat) : (covered window 0).length = fanOut window := by
  rw [length_covered, fanOut_eq, Nat.zero_mod]
  split <;> split <;> omega

theorem exists_keys (hT : T ≤ 10 ^ 14) (hw : window ≤ 10 ^ 9) (name : String) :
    ∃ keys, keys? name (ofNat window) (range (Counter.seconds (ofNat T)) (ofNat window)) = some keys ∧
      keys.length = (covered window T).length :=
  ⟨_, keys?_covered hT hw name, List.length_map ..⟩

end

end Bucket

/-- A read touches at most one key more than it takes widths to fill the window, and at some moment
as many: up to 301 keys for five minutes, 361 for an hour and 1441 for a day. A longer window has a
key for every ten minutes, however many these are. -/
theorem fanOut_bounds {window : Nat} (hw : window ≤ 10 ^ 9) (name : String) :
    (∀ T ≤ 10 ^ 14, ∃ keys, Bucket.keys? name (ofNat window)
        (Bucket.range (Counter.seconds (ofNat T)) (ofNat window)) = some keys ∧
      keys.length ≤ Bucket.fanOut window) ∧
    (∃ keys, Bucket.keys? name (ofNat window)
        (Bucket.range (Counter.seconds (ofNat 0)) (ofNat window)) = some keys ∧
      keys.length = Bucket.fanOut window) ∧
    (window ≤ 300 → Bucket.fanOut window ≤ 301) ∧ (window ≤ 3600 → Bucket.fanOut window ≤ 361) ∧
    (window ≤ 86400 → Bucket.fanOut window ≤ 1441) ∧
    (86400 < window → Bucket.fanOut window = (window + 599) / 600 + 1) ∧
    (Bucket.fanOut window ≤ 302 ↔ window ≤ 3010 ∨ 3600 < window ∧ window ≤ 18060 ∨
      86400 < window ∧ window ≤ 180600) := by
  refine ⟨fun T hT => ?_, ?_, ?_⟩
  · obtain ⟨keys, hkeys, hlength⟩ := Bucket.exists_keys hT hw name
    exact ⟨keys, hkeys, hlength ▸ Bucket.length_covered_le window T⟩
  · obtain ⟨keys, hkeys, hlength⟩ := Bucket.exists_keys (Nat.zero_le _) hw name
    exact ⟨keys, hkeys, hlength.trans (Bucket.length_covered_zero window)⟩
  · have hsteps : Bucket.fanOut window =
        (window + wholeWidth window - 1) / wholeWidth window + 1 := rfl
    unfold wholeWidth at hsteps
    split at hsteps
    · omega
    · split at hsteps
      · omega
      · split at hsteps <;> omega

/-- The longest window that never takes more than 302 keys. -/
theorem fanOut_bounds_longest : Bucket.fanOut 180600 ≤ 302 ∧ ∀ T ≤ 10 ^ 14, ∃ keys,
    Bucket.keys? "a" (ofNat 180600) (Bucket.range (Counter.seconds (ofNat T)) (ofNat 180600)) =
        some keys ∧ keys.length ≤ Bucket.fanOut 180600 := by
  have hbounds := fanOut_bounds (show 180600 ≤ 10 ^ 9 by decide) "a"
  exact ⟨hbounds.2.2.2.2.2.2.mpr (by decide), hbounds.1⟩

/-- An hour already takes more. -/
theorem fanOut_hour : ∃ keys, Bucket.keys? "a" (ofNat 3600)
    (Bucket.range (Counter.seconds (ofNat 0)) (ofNat 3600)) = some keys ∧ keys.length = 361 ∧
      ¬keys.length ≤ 302 := by
  obtain ⟨keys, hkeys, hlength⟩ :=
    Bucket.exists_keys (Nat.zero_le (10 ^ 14)) (show 3600 ≤ 10 ^ 9 by decide) "a"
  have hmany : keys.length = 361 := by
    rw [hlength, Bucket.length_covered_zero]
    decide
  exact ⟨keys, hkeys, hmany, by omega⟩

end SlidingTally
