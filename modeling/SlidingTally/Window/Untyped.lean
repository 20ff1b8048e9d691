import SlidingTally.Value.Access
import SlidingTally.Window.Bucket

/-!
# Bucket arithmetic on untyped values

The functions of `Bucket` for callers who pass values of any kind. Each works on the numbers
that the values denote, but a key has its parts as they are written, and so does the first
id of a range. Main statements: on numbers these are the functions of `Bucket`.
-/

namespace SlidingTally.Bucket

def widthOf (window : Value) : Except Fault Binary64 := do return width (← window.asNumber)

def idOf (seconds width : Value) : Except Fault Binary64 := do
  return id (← seconds.asNumber) (← width.asNumber)

def keyOf (name window id : Value) : Except Fault String := do
  return keyText (← name.asText) (← window.asText) (← id.asText)

def rangeOf (now window : Value) : Except Fault BucketRange := do
  return range (← now.asNumber) (← window.asNumber)

def keysOf? (name window first last : Value) : Except Fault (Option (List String)) := do
  if ← first.atMost last then
    let nameText ← name.asText
    let windowText ← window.asText
    let firstText ← first.asText
    let others := ids? ⟨(← first.asNumber) + 1, ← last.asNumber⟩
    return others.map fun ids =>
      (firstText :: ids.map Binary64.text).map (keyText nameText windowText)
  else return some []

/-- The time to live of a new bucket in seconds. A window that is no number has the width of
its bucket put behind it instead of added. -/
def ttlOf (window requested : Value) : Except Fault Binary64 := do
  let seconds ← window.asNumber
  let least ← (← window.plus (width seconds)).asNumber
  return ttlAtLeast least seconds requested

theorem widthOf_number (window : Binary64) : widthOf (.number window) = .ok (width window) := rfl

theorem idOf_number (seconds width : Binary64) :
    idOf (.number seconds) (.number width) = .ok (id seconds width) := rfl

theorem keyOf_number (name : String) (window id : Binary64) :
    keyOf (.text name) (.number window) (.number id) = .ok (key name window id) := by
  simp only [keyOf, Value.asText_text, Value.asText_number]
  rfl

theorem rangeOf_number (now window : Binary64) :
    rangeOf (.number now) (.number window) = .ok (range now window) := rfl

theorem ttlOf_number (window : Binary64) (requested : Value) :
    ttlOf (.number window) requested = .ok (ttl window requested) := rfl

end SlidingTally.Bucket
