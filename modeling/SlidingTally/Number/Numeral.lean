import SlidingTally.Number.Decimal
import SlidingTally.Text.Blank

/-!
# Numerals

How doubles are written and read. `Binary64.text` writes the fewest digits that read back,
positionally between 10^-7 and 10^21 and with an exponent outside. `Numeral.read` reads any
decimal, hexadecimal, octal or binary numeral and takes blanks for zero;
`Numeral.readInteger` reads the longest run of digits at the start of a text.
-/

namespace SlidingTally

-- ---------------------------------------------------------------------------
-- Writing
-- ---------------------------------------------------------------------------

namespace Decimal

/-- Decimal points up to this many places are reached by zeros, without an exponent. -/
def positionalPlaces : Int := 21

/-- Up to this many zeros stand between the point and the first digit. -/
def fractionZeros : Int := 5

def layout (d : Decimal) : List Char :=
  let digits := Nat.toDigits 10 d.coefficient
  let places : Int := digits.length + d.exponent
  if digits.length ≤ places ∧ places ≤ positionalPlaces then
    digits ++ List.replicate d.exponent.toNat '0'
  else if 0 < places ∧ places ≤ positionalPlaces then
    digits.take places.toNat ++ '.' :: digits.drop places.toNat
  else if -fractionZeros ≤ places ∧ places ≤ 0 then
    '0' :: '.' :: (List.replicate (-places).toNat '0' ++ digits)
  else
    let exponent := places - 1
    let fraction := if digits.length = 1 then [] else '.' :: digits.drop 1
    digits.take 1 ++ fraction ++ 'e' :: (if exponent < 0 then '-' else '+') ::
      Nat.toDigits 10 exponent.natAbs

end Decimal

def intNumeral (i : Int) : List Char :=
  if i < 0 then '-' :: Nat.toDigits 10 i.natAbs else Nat.toDigits 10 i.natAbs

namespace Binary64

/-- The characters of a double; both zeros are written `0`. Integers without gaps are
written as they are, all else by the shortest decimal. -/
def chars (x : Binary64) : List Char :=
  match x with
  | .nan => "NaN".toList
  | .infinite negative => if negative then "-Infinity".toList else "Infinity".toList
  | .finite negative magnitude =>
    match x.toInt? with
    | some i =>
      if i.natAbs ≤ safeLimit.natAbs then intNumeral i
      else signed negative (Decimal.shortest magnitude).layout
    | none => signed negative (Decimal.shortest magnitude).layout
where
  signed (negative : Bool) (digits : List Char) : List Char :=
    if negative then '-' :: digits else digits

def text (x : Binary64) : String := String.ofList x.chars

end Binary64

-- ---------------------------------------------------------------------------
-- Reading
-- ---------------------------------------------------------------------------

namespace Numeral

def digitValue (c : Char) : Nat :=
  if c.isDigit then c.toNat - '0'.toNat
  else if 'a' ≤ c ∧ c ≤ 'f' then c.toNat - 'a'.toNat + 10
  else if 'A' ≤ c ∧ c ≤ 'F' then c.toNat - 'A'.toNat + 10
  else 16

def value (base : Nat) (digits : List Char) : Nat :=
  digits.foldl (fun total c => total * base + digitValue c) 0

def spanDigits (cs : List Char) : List Char × List Char :=
  (cs.takeWhile Char.isDigit, cs.dropWhile Char.isDigit)

def signedDigits? : List Char → Option Int
  | '+' :: digits => natural? digits
  | '-' :: digits => (natural? digits).map Neg.neg
  | digits => natural? digits
where
  natural? (digits : List Char) : Option Int :=
    if digits ≠ [] ∧ digits.all Char.isDigit then some (value 10 digits) else none

def exponent? : List Char → Option Int
  | [] => some 0
  | c :: rest => if c = 'e' ∨ c = 'E' then signedDigits? rest else none

/-- An unsigned decimal numeral: digits, a point anywhere among them, and an exponent. -/
def decimal? (cs : List Char) : Option Decimal :=
  let (whole, behind) := spanDigits cs
  let (fraction, rest) := match behind with
    | '.' :: afterPoint => spanDigits afterPoint
    | _ => ([], behind)
  if whole = [] ∧ fraction = [] then none
  else (exponent? rest).map fun exponent =>
    ⟨value 10 (whole ++ fraction), exponent - fraction.length⟩

def unsigned (negative : Bool) (cs : List Char) : Binary64 :=
  if cs = "Infinity".toList then .infinite negative
  else match decimal? cs with
    | some d => d.toBinary64 negative
    | none => .nan

def inBase (base : Nat) (digits : List Char) : Binary64 :=
  if digits ≠ [] ∧ digits.all fun c => digitValue c < base then
    .ofRatio false (value base digits * unitsPerOne) 1
  else .nan

def readTrimmed : List Char → Binary64
  | [] => .zero
  | '0' :: 'x' :: digits => inBase 16 digits
  | '0' :: 'X' :: digits => inBase 16 digits
  | '0' :: 'o' :: digits => inBase 8 digits
  | '0' :: 'O' :: digits => inBase 8 digits
  | '0' :: 'b' :: digits => inBase 2 digits
  | '0' :: 'B' :: digits => inBase 2 digits
  | '+' :: cs => unsigned false cs
  | '-' :: cs => unsigned true cs
  | cs => unsigned false cs

/-- The number that a text denotes as a whole, blanks at its ends aside; NaN if none. -/
def read (text : String) : Binary64 := readTrimmed (Text.trim text.toList)

/-- The integer at the start of a text: blanks, a sign and the longest run of digits,
rounded to a double; NaN without a digit. -/
def readInteger (text : String) : Binary64 :=
  match Text.trimStart text.toList with
  | '+' :: cs => leading false cs
  | '-' :: cs => leading true cs
  | cs => leading false cs
where
  leading (negative : Bool) (cs : List Char) : Binary64 :=
    match cs.takeWhile Char.isDigit with
    | [] => .nan
    | digits => (Decimal.mk (value 10 digits) 0).toBinary64 negative

end Numeral

end SlidingTally
