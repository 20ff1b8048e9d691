import SlidingTally.Number.Magnitude

/-!
# Double precision numbers

`Binary64` is the set of IEEE 754 doubles with one NaN, held exactly: a finite value is a
sign and a `Magnitude`. Every operation computes the exact result in units of 2^-1074 and
rounds once, to nearest with ties to even. Comparisons are false on NaN and do not tell
the two zeros apart; equality of `Binary64` values does.
-/

namespace SlidingTally

/-- A double; `finite` keeps the sign of zero. -/
inductive Binary64 where
  | nan
  | infinite (negative : Bool)
  | finite (negative : Bool) (magnitude : Magnitude)
deriving DecidableEq

namespace Binary64

def zero : Binary64 := .finite false .zero

instance : Inhabited Binary64 := ⟨zero⟩

-- ---------------------------------------------------------------------------
-- Rounding
-- ---------------------------------------------------------------------------

/-- A quotient of units, rounded once; too large a quotient is infinite. -/
def ofRatio (negative : Bool) (numerator denominator : Nat) : Binary64 :=
  match Magnitude.ofRatio? numerator denominator with
  | some magnitude => .finite negative magnitude
  | none => .infinite negative

def ofInt (i : Int) : Binary64 :=
  ofRatio (i < 0) (i.natAbs * unitsPerOne) 1

def ofNat (n : Nat) : Binary64 := ofInt n

instance (n : Nat) : OfNat Binary64 n := ⟨ofNat n⟩

instance : IntCast Binary64 := ⟨ofInt⟩

-- ---------------------------------------------------------------------------
-- Views
-- ---------------------------------------------------------------------------

/-- The signed number of units of a finite double, zero for the others. -/
def units : Binary64 → Int
  | .finite true magnitude => -(magnitude.units : Int)
  | .finite false magnitude => magnitude.units
  | _ => 0

def isNegative : Binary64 → Bool
  | .nan => false
  | .infinite negative => negative
  | .finite negative _ => negative

def isFinite : Binary64 → Bool
  | .finite _ _ => true
  | _ => false

def isNaN : Binary64 → Bool
  | .nan => true
  | _ => false

def isZero : Binary64 → Bool
  | .finite _ magnitude => magnitude.units == 0
  | _ => false

def toInt? : Binary64 → Option Int
  | .finite negative magnitude =>
    if magnitude.units % unitsPerOne = 0 then
      let whole : Int := (magnitude.units / unitsPerOne : Nat)
      some (if negative then -whole else whole)
    else
      none
  | _ => none

def isInteger (x : Binary64) : Bool := x.toInt?.isSome

/-- The integers that doubles represent without gaps. -/
def safeLimit : Int := 9007199254740991

-- ---------------------------------------------------------------------------
-- Order
-- ---------------------------------------------------------------------------

def lt : Binary64 → Binary64 → Bool
  | .nan, _ => false
  | _, .nan => false
  | .infinite negative, .infinite negative' => negative && !negative'
  | .infinite negative, .finite _ _ => negative
  | .finite _ _, .infinite negative => !negative
  | x@(.finite _ _), y@(.finite _ _) => x.units < y.units

/-- Equal as numbers: NaN differs from itself and the zeros are equal. -/
def eq : Binary64 → Binary64 → Bool
  | .infinite negative, .infinite negative' => negative == negative'
  | x@(.finite _ _), y@(.finite _ _) => x.units == y.units
  | _, _ => false

def le (x y : Binary64) : Bool := x.lt y || x.eq y

-- ---------------------------------------------------------------------------
-- Arithmetic
-- ---------------------------------------------------------------------------

def neg : Binary64 → Binary64
  | .nan => .nan
  | .infinite negative => .infinite !negative
  | .finite negative magnitude => .finite (!negative) magnitude

/-- The sum; an exact zero is positive unless both terms are negative. -/
def add : Binary64 → Binary64 → Binary64
  | .nan, _ => .nan
  | _, .nan => .nan
  | .infinite negative, .infinite negative' =>
    if negative = negative' then .infinite negative else .nan
  | .infinite negative, .finite _ _ => .infinite negative
  | .finite _ _, .infinite negative => .infinite negative
  | x@(.finite negative _), y@(.finite negative' _) =>
    let sum := x.units + y.units
    if sum = 0 then .finite (negative && negative') .zero
    else ofRatio (sum < 0) sum.natAbs 1

def sub (x y : Binary64) : Binary64 := x.add y.neg

def mul : Binary64 → Binary64 → Binary64
  | .nan, _ => .nan
  | _, .nan => .nan
  | .infinite negative, .infinite negative' => .infinite (negative ^^ negative')
  | .infinite negative, y@(.finite negative' _) =>
    if y.isZero then .nan else .infinite (negative ^^ negative')
  | x@(.finite negative _), .infinite negative' =>
    if x.isZero then .nan else .infinite (negative ^^ negative')
  | .finite negative a, .finite negative' b =>
    ofRatio (negative ^^ negative') (a.units * b.units) unitsPerOne

def div : Binary64 → Binary64 → Binary64
  | .nan, _ => .nan
  | _, .nan => .nan
  | .infinite _, .infinite _ => .nan
  | .infinite negative, .finite negative' _ => .infinite (negative ^^ negative')
  | .finite negative _, .infinite negative' => .finite (negative ^^ negative') .zero
  | .finite negative a, .finite negative' b =>
    if b.units = 0 then
      if a.units = 0 then .nan else .infinite (negative ^^ negative')
    else
      ofRatio (negative ^^ negative') (a.units * unitsPerOne) b.units

instance : Add Binary64 := ⟨add⟩
instance : Sub Binary64 := ⟨sub⟩
instance : Mul Binary64 := ⟨mul⟩
instance : Div Binary64 := ⟨div⟩
instance : Neg Binary64 := ⟨neg⟩

/-- The whole number that `round` picks for the units of a finite double; zero keeps the
sign of the argument. -/
def toWhole (round : Int → Int) : Binary64 → Binary64
  | .finite negative magnitude =>
    let whole := round (Binary64.finite negative magnitude).units
    ofRatio negative (whole.natAbs * unitsPerOne) 1
  | x => x

def floor : Binary64 → Binary64 := toWhole fun units => Int.fdiv units unitsPerOne

def ceil : Binary64 → Binary64 := toWhole fun units => -Int.fdiv (-units) unitsPerOne

def trunc : Binary64 → Binary64 := toWhole fun units => Int.tdiv units unitsPerOne

def toOctet (x : Binary64) : UInt8 := UInt8.ofInt (x.trunc.toInt?.getD 0)

/-- The larger of two; NaN if either is, and a positive zero is above a negative one. -/
def max (x y : Binary64) : Binary64 :=
  if x.isNaN || y.isNaN then .nan
  else if x.lt y then y
  else if y.lt x then x
  else if x.isNegative then y else x

/-- The smaller of two; NaN if either is, and a negative zero is below a positive one. -/
def min (x y : Binary64) : Binary64 :=
  if x.isNaN || y.isNaN then .nan
  else if x.lt y then x
  else if y.lt x then y
  else if x.isNegative then x else y

end Binary64

end SlidingTally
