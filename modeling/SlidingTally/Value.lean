import SlidingTally.Instant
import SlidingTally.Text.Units
import SlidingTally.Text.Utf8

/-!
# Loosely typed values

What a store hands back, what a caller puts into a setting or asks for and what a client
throws is a `Value` of any kind. `Value.toText?` writes one, `Value.toNumber?` reads one as a
number, `Value.items?` goes through one, and `Value.truthy` says whether it counts as given.
Main statement: `toNumber?_isSome_of_toText?` says that what can be written can also be read
as a number.
-/

namespace SlidingTally

inductive Value where
  | undefined
  | null
  | bool (b : Bool)
  | number (x : Binary64)
  | text (s : String)
  | bytes (octets : List UInt8)
  | instant (instant : Instant)
  /-- Keys of any kind with their values, in order of arrival. -/
  | table (entries : List (Value × Value))
  | list (items : List Value)
  | record (fields : List (String × Value))
deriving Inhabited

namespace Value

-- ---------------------------------------------------------------------------
-- Text and number
-- ---------------------------------------------------------------------------

/-- The field by which a record says how it is written. No record says so in a way that
works, so one with this field cannot be written at all. -/
def textField : String := "toString"

mutual
/-- How a value is written into a message, if it can be: bytes by their text, a list by its
items between commas. -/
def toText? : Value → Option String
  | undefined => some "undefined"
  | null => some "null"
  | bool true => some "true"
  | bool false => some "false"
  | number x => some x.text
  | text s => some s
  | bytes octets => some (Utf8.decode octets)
  | instant moment => some moment.text
  | table _ => some "[object Map]"
  | list items => (itemTexts? items).map (",".intercalate ·)
  | record fields => if fields.any (·.1 = textField) then none else some "[object Object]"
def itemTexts? : List Value → Option (List String)
  | [] => some []
  | undefined :: rest => (itemTexts? rest).map ("" :: ·)
  | null :: rest => (itemTexts? rest).map ("" :: ·)
  | item :: rest => do
    let first ← toText? item
    return first :: (← itemTexts? rest)
end

/-- A value where a number is wanted: null counts as zero, an instant by its milliseconds,
and all else that is no number is read from its text. -/
def toNumber? : Value → Option Binary64
  | undefined => some .nan
  | null => some .zero
  | bool true => some 1
  | bool false => some .zero
  | number x => some x
  | instant moment => some moment.toNumber
  | value => value.toText?.map Numeral.read

@[simp] theorem toText?_text (s : String) : (text s).toText? = some s := by simp [toText?]

@[simp] theorem toText?_number (x : Binary64) : (number x).toText? = some x.text := by
  simp [toText?]

theorem toNumber?_isSome_of_toText? {value : Value} (h : value.toText?.isSome) :
    value.toNumber?.isSome := by
  cases value with
  | bool b => cases b <;> rfl
  | undefined | null | number | instant => rfl
  | text | bytes | table | list | record =>
    simp only [toNumber?, Option.isSome_map]
    exact h

-- ---------------------------------------------------------------------------
-- Tests
-- ---------------------------------------------------------------------------

/-- Absent values, zeros, NaN and the empty text are not truthy; all else is. -/
def truthy : Value → Bool
  | undefined => false
  | null => false
  | bool b => b
  | number x => !(x.isNaN || x.isZero)
  | text s => !s.isEmpty
  | _ => true

def isNull : Value → Bool
  | null => true
  | _ => false

theorem isNull_of_ne {value : Value} (h : value = null → False) : value.isNull = false := by
  cases value with
  | null => exact absurd rfl h
  | _ => rfl

def isGiven : Value → Bool
  | undefined => false
  | null => false
  | _ => true

def orElse (value fallback : Value) : Value := if value.isGiven then value else fallback

def orDefault (value fallback : Value) : Value :=
  match value with
  | undefined => fallback
  | value => value

def number? : Value → Option Binary64
  | number x => some x
  | _ => none

def text? : Value → Option String
  | text s => some s
  | _ => none

def isNumber (value : Value) (x : Binary64) : Bool := value.number?.any x.eq

/-- Every value is identical to itself but NaN. -/
def identicalToItself : Value → Bool
  | number x => !x.isNaN
  | _ => true

-- ---------------------------------------------------------------------------
-- Parts
-- ---------------------------------------------------------------------------

/-- A field of a record; values without fields have every field undefined. -/
def field (value : Value) (name : String) : Value :=
  match value with
  | record fields => (fields.lookup name).getD .undefined
  | _ => .undefined

def length? : Value → Option Nat
  | text s => some (Text.units16 s.toList).length
  | bytes octets => some octets.length
  | list items => some items.length
  | _ => none

def ofOctet (octet : UInt8) : Value := number (.ofNat octet.toNat)

/-- What a value consists of, if it can be gone through: a text of its characters, bytes of
numbers, a table of its keys with their values. -/
def items? : Value → Option (List Value)
  | text s => some (s.toList.map fun c => text c.toString)
  | bytes octets => some (octets.map ofOctet)
  | table entries => some (entries.map fun entry => list [entry.1, entry.2])
  | list items => some items
  | _ => none

end Value

end SlidingTally
