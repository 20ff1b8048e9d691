import SlidingTally.Value.Access

/-!
# Reading stored values

Stores hand values back as numbers, texts or bytes. `Codec.text` reads any of them,
`Codec.integer` accepts integers and texts that are an optionally signed run of digits
between blanks, and `Codec.float` accepts every number and every text that denotes a
finite one. What they refuse is a `decode` fault that names the key.
-/

namespace SlidingTally.Codec

variable {α : Type}

def text (value : Value) : Except Fault String := value.asText

def refuse (key : Value) (raw expected : String) : Except Fault α := do
  throw (.decode (← key.asText) raw expected)

theorem refuse_text (name raw expected : String) :
    (refuse (.text name) raw expected : Except Fault α) = .error (.decode name raw expected) := by
  rw [refuse, Value.asText_text]
  rfl

/-- An optional sign and at least one digit. -/
def isSignedDigits : List Char → Bool
  | '+' :: digits => !digits.isEmpty && digits.all Char.isDigit
  | '-' :: digits => !digits.isEmpty && digits.all Char.isDigit
  | digits => !digits.isEmpty && digits.all Char.isDigit

def isIntegerText (text : String) : Bool := isSignedDigits (Text.trim text.toList)

def integer (key value : Value) : Except Fault Binary64 :=
  match value with
  | .number x => if x.isInteger then .ok x else refuse key x.text "integer"
  | value => do
    let text ← value.asText
    if isIntegerText text then return Numeral.readInteger text
    refuse key text "integer"

def float (key value : Value) : Except Fault Binary64 :=
  match value with
  | .number x => .ok x
  | value => do
    let trimmed := Text.trim (← value.asText).toList
    let parsed := Numeral.readTrimmed trimmed
    if trimmed.isEmpty || !parsed.isFinite then
      refuse key (String.ofList trimmed) "float"
    else return parsed

end SlidingTally.Codec
