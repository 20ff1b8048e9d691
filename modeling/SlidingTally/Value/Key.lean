import SlidingTally.Table
import SlidingTally.Value

/-!
# Keys

A value of any kind may stand as a key. Two simple values are the same key if they are equal,
where the zeros are equal and NaN is equal to itself. A value with parts is no other key than
itself, however much they look alike, and `Key.origin` says which one it is.
`Key.identity` is what keys are told apart by. Main statement: `identity_text_inj` says that
keys that are texts are told apart by the text.
-/

namespace SlidingTally

structure Key where
  value : Value
  /-- Which one of all values with parts this is; of no matter for a simple value. -/
  origin : Nat := 0

namespace Key

/-- What keys are told apart by; a number is never a negative zero. -/
inductive Identity where
  | undefined
  | null
  | bool (b : Bool)
  | number (x : Binary64)
  | text (s : String)
  | parts (origin : Nat)
deriving DecidableEq

def text (s : String) : Key := ⟨.text s, 0⟩

def ofSimple? (value : Value) : Option Key :=
  match value with
  | .undefined => some ⟨value, 0⟩
  | .null => some ⟨value, 0⟩
  | .bool _ => some ⟨value, 0⟩
  | .number _ => some ⟨value, 0⟩
  | .text _ => some ⟨value, 0⟩
  | _ => none

def ofEach (values : List Value) : List Key :=
  values.zipIdx.map fun (value, position) => ⟨value, position⟩

def unsigned (x : Binary64) : Binary64 := if x.isZero then .zero else x

def identity (key : Key) : Identity :=
  match key.value with
  | .undefined => .undefined
  | .null => .null
  | .bool b => .bool b
  | .number x => .number (unsigned x)
  | .text s => .text s
  | _ => .parts key.origin

/-- The value of a key as it stands in a table. -/
def inTable (key : Key) : Value :=
  match key.value with
  | .number x => .number (unsigned x)
  | value => value

@[simp] theorem identity_text (s : String) : (text s).identity = .text s := rfl

theorem identity_text_inj {a b : String} : (text a).identity = (text b).identity ↔ a = b := by
  simp

end Key

/-- The entries of a table that is filled in order. A later value of a key takes the place of
an earlier one. -/
def Value.entriesOf (given : List (Key × Value)) : List (Value × Value) :=
  let filled := given.foldl (fun (table : Table Key.Identity (Value × Value)) entry =>
    table.insert entry.1.identity (entry.1.inTable, entry.2)) .empty
  filled.entries.map Prod.snd

end SlidingTally
