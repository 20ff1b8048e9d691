import SlidingTally.Fault

/-!
# Using values

Values of any kind stand where a text, a number, a record or a list is wanted. Each reader
here says what a value is good for and which fault it is to use it for more: `asText`,
`asNumber`, `property`, `iterate`, and `pair` for an item that should be a key with a value.
Main statements: the readers succeed on values of the kind that is wanted.
-/

namespace SlidingTally.Value

def asText (value : Value) : Except Fault String :=
  match value.toText? with
  | some s => .ok s
  | none => .error Fault.unwritable

def asNumber (value : Value) : Except Fault Binary64 :=
  match value.toNumber? with
  | some x => .ok x
  | none => .error Fault.unwritable

def noProperty (value name : String) : Fault :=
  .wrongType s!"Cannot read properties of {value} (reading '{name}')"

def property (value : Value) (name : String) : Except Fault Value :=
  match value with
  | undefined => .error (noProperty "undefined" name)
  | null => .error (noProperty "null" name)
  | value => .ok (value.field name)

def lengthOf (value : Value) : Except Fault Value :=
  match value.length? with
  | some length => .ok (.number (.ofNat length))
  | none => value.property "length"

def iterate (name : String) (value : Value) : Except Fault (List Value) :=
  match value.items? with
  | some items => .ok items
  | none => .error (.wrongType s!"{name} is not iterable")

def pair (value : Value) : Except Fault (Value × Value) := do
  let items ← value.iterate ".for"
  return (items[0]?.getD .undefined, items[1]?.getD .undefined)

/-- Whether a value is compared by its text with others of the kind. -/
def comparesAsText : Value → Bool
  | text _ => true
  | bytes _ => true
  | table _ => true
  | list _ => true
  | record _ => true
  | _ => false

/-- Not above another value: two texts by their UTF-16 units, all else as numbers. -/
def atMost (a b : Value) : Except Fault Bool :=
  if a.comparesAsText && b.comparesAsText then do
    return Text.le16 (Text.units16 (← a.asText).toList) (Text.units16 (← b.asText).toList)
  else do return (← a.asNumber).le (← b.asNumber)

/-- The sum with a number, where a value with parts or a text has the numeral of the number
put behind it. -/
def plus (value : Value) (x : Binary64) : Except Fault Value :=
  match value with
  | undefined => .ok (.number .nan)
  | null => .ok (.number (.zero + x))
  | bool b => .ok (.number ((if b then 1 else .zero) + x))
  | number y => .ok (.number (y + x))
  | value => do return .text ((← value.asText) ++ x.text)

theorem asText_eq_ok_iff {value : Value} : value.asText = .ok s ↔ value.toText? = some s := by
  unfold asText
  split <;> simp_all

@[simp] theorem asText_text (s : String) : (text s).asText = .ok s := by simp [asText]

@[simp] theorem asText_number (x : Binary64) : (number x).asText = .ok x.text := by simp [asText]

@[simp] theorem asNumber_number (x : Binary64) : (number x).asNumber = .ok x := rfl

@[simp] theorem iterate_table (name : String) (entries : List (Value × Value)) :
    (table entries).iterate name = .ok (entries.map fun entry => list [entry.1, entry.2]) := rfl

@[simp] theorem pair_list (first second : Value) :
    (list [first, second]).pair = .ok (first, second) := rfl

end SlidingTally.Value
