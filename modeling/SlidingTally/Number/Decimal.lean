import SlidingTally.Number.Binary64

/-!
# Decimals

A `Decimal` is a natural coefficient times a power of ten. `Decimal.toBinary64` rounds it
once to a double, and `shortest` finds the decimal with the fewest digits that rounds back
to a given magnitude, the nearer of two and on a tie the even one. Main statement:
`roundsTo_shortest_of_search` says that what the search accepts rounds back.
-/

namespace SlidingTally

/-- The number `coefficient * 10 ^ exponent`. -/
structure Decimal where
  coefficient : Nat
  exponent : Int
deriving DecidableEq

namespace Decimal

def digitCount (n : Nat) : Nat := (Nat.toDigits 10 n).length

/-- The double nearest to a decimal with the given sign. Numbers of 310 or more places are
infinite and numbers below 10^-324 are zero, so no other power of ten is computed. -/
def toBinary64 (negative : Bool) (d : Decimal) : Binary64 :=
  let places := digitCount d.coefficient + d.exponent
  if d.coefficient = 0 then .finite negative .zero
  else if 310 ≤ places then .infinite negative
  else if places ≤ -324 then .finite negative .zero
  else if 0 ≤ d.exponent then
    .ofRatio negative (d.coefficient * Nat.pow 10 d.exponent.toNat * unitsPerOne) 1
  else
    .ofRatio negative (d.coefficient * unitsPerOne) (Nat.pow 10 (-d.exponent).toNat)

def RoundsTo (d : Decimal) (magnitude : Magnitude) : Prop :=
  d.toBinary64 false = .finite false magnitude

instance (d : Decimal) (magnitude : Magnitude) : Decidable (d.RoundsTo magnitude) :=
  inferInstanceAs (Decidable (_ = _))

-- ---------------------------------------------------------------------------
-- The shortest decimal
-- ---------------------------------------------------------------------------

def leadingZeros (units : Nat) : Nat → Nat
  | 0 => 0
  | fuel + 1 => if units * 10 < unitsPerOne then leadingZeros (units * 10) fuel + 1 else 0

def position (units : Nat) : Int :=
  if units < unitsPerOne then -(leadingZeros units 324)
  else digitCount (units / unitsPerOne)

def scaled (units : Nat) (exponent : Int) : Nat × Nat :=
  if 0 ≤ exponent then (units, unitsPerOne * Nat.pow 10 exponent.toNat)
  else (units * Nat.pow 10 (-exponent).toNat, unitsPerOne)

/-- The two decimals of the given number of digits on either side of a magnitude, the nearer
one first and on a tie the even one. -/
def neighbours (magnitude : Magnitude) (digits : Nat) : List Decimal :=
  let exponent := position magnitude.units - digits
  let (numerator, denominator) := scaled magnitude.units exponent
  let below : Decimal := ⟨numerator / denominator, exponent⟩
  let above : Decimal := ⟨numerator / denominator + 1, exponent⟩
  let twice := 2 * (numerator % denominator)
  if denominator < twice ∨ (twice = denominator ∧ below.coefficient % 2 = 1) then
    [above, below]
  else
    [below, above]

/-- The nearest decimal of the given number of digits among those that round to a
magnitude, if there is one: then one of its two neighbours does. -/
def withDigits? (magnitude : Magnitude) (digits : Nat) : Option Decimal :=
  (neighbours magnitude digits).find? fun d => d.RoundsTo magnitude

def search (magnitude : Magnitude) : (digits fuel : Nat) → Option Decimal
  | _, 0 => none
  | digits, fuel + 1 => (withDigits? magnitude digits).orElse fun _ =>
      search magnitude (digits + 1) fuel

theorem roundsTo_of_withDigits? {magnitude : Magnitude} {digits : Nat} {d : Decimal}
    (h : withDigits? magnitude digits = some d) : d.RoundsTo magnitude := by
  have := List.find?_some h
  exact of_decide_eq_true this

theorem roundsTo_shortest_of_search {magnitude : Magnitude} {digits fuel : Nat} {d : Decimal}
    (h : search magnitude digits fuel = some d) : d.RoundsTo magnitude := by
  induction fuel generalizing digits with
  | zero => simp [search] at h
  | succ fuel ih =>
    rw [search] at h
    cases hw : withDigits? magnitude digits with
    | none =>
      rw [hw] at h
      exact ih h
    | some found =>
      rw [hw] at h
      cases h
      exact roundsTo_of_withDigits? hw

def exact (magnitude : Magnitude) : Decimal := ⟨magnitude.units * Nat.pow 5 1074, -1074⟩

def normalizedWith : Nat → Decimal → Decimal
  | 0, d => d
  | fuel + 1, d =>
    if d.coefficient ≠ 0 ∧ d.coefficient % 10 = 0 then
      normalizedWith fuel ⟨d.coefficient / 10, d.exponent + 1⟩
    else d

def normalized (d : Decimal) : Decimal := normalizedWith (digitCount d.coefficient) d

/-- The decimal with the fewest digits that rounds to a magnitude; 17 digits are enough
for every double. -/
def shortest (magnitude : Magnitude) : Decimal :=
  ((search magnitude 1 17).getD (exact magnitude)).normalized

end Decimal

end SlidingTally
