/-!
# Lenient UTF-8

Stored bytes are read as UTF-8 without ever failing. A sequence that UTF-8 cannot hold is
replaced by U+FFFD, once for each longest beginning of a character, and a byte order mark
is kept. `Utf8.decode` runs over the octets with a `Pending` character: what is still owed
and the bounds on the next octet.
-/

namespace SlidingTally.Utf8

def replacement : Char := '\uFFFD'

/-- A character that has begun: its bits so far, how many octets are still owed, and the
least and greatest octet that may come next. -/
structure Pending where
  bits : Nat
  owed : Nat
  least : Nat
  greatest : Nat

inductive Lead where
  | whole (c : Char)
  | partly (pending : Pending)
  | invalid

/-- The reading of a first octet. The bounds on the second one exclude overlong forms,
surrogates and numbers above U+10FFFF. -/
def lead (octet : Nat) : Lead :=
  if octet ≤ 0x7F then .whole (Char.ofNat octet)
  else if 0xC2 ≤ octet ∧ octet ≤ 0xDF then .partly ⟨octet - 0xC0, 1, 0x80, 0xBF⟩
  else if octet = 0xE0 then .partly ⟨0, 2, 0xA0, 0xBF⟩
  else if octet = 0xED then .partly ⟨0xD, 2, 0x80, 0x9F⟩
  else if 0xE1 ≤ octet ∧ octet ≤ 0xEF then .partly ⟨octet - 0xE0, 2, 0x80, 0xBF⟩
  else if octet = 0xF0 then .partly ⟨0, 3, 0x90, 0xBF⟩
  else if 0xF1 ≤ octet ∧ octet ≤ 0xF3 then .partly ⟨octet - 0xF0, 3, 0x80, 0xBF⟩
  else if octet = 0xF4 then .partly ⟨4, 3, 0x80, 0x8F⟩
  else .invalid

def begin (octet : Nat) (go : Option Pending → List Char) : List Char :=
  match lead octet with
  | .whole c => c :: go none
  | .partly pending => go (some pending)
  | .invalid => replacement :: go none

/-- Reads octets behind an unfinished character. An octet that cannot continue it closes it
with the replacement and starts the next character. -/
def decodeFrom : Option Pending → List UInt8 → List Char
  | none, [] => []
  | some _, [] => [replacement]
  | none, octet :: rest => begin octet.toNat fun pending => decodeFrom pending rest
  | some pending, octet :: rest =>
    let n := octet.toNat
    if pending.least ≤ n ∧ n ≤ pending.greatest then
      let bits := pending.bits * 64 + (n - 0x80)
      if pending.owed = 1 then Char.ofNat bits :: decodeFrom none rest
      else decodeFrom (some ⟨bits, pending.owed - 1, 0x80, 0xBF⟩) rest
    else
      replacement :: begin n fun next => decodeFrom next rest

def decode (octets : List UInt8) : String := String.ofList (decodeFrom none octets)

theorem decodeFrom_cons_ascii {octet : UInt8} (h : octet.toNat ≤ 0x7F) (rest : List UInt8) :
    decodeFrom none (octet :: rest) = Char.ofNat octet.toNat :: decodeFrom none rest := by
  simp [decodeFrom, begin, lead, h]

end SlidingTally.Utf8
