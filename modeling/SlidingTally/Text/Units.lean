/-!
# UTF-16

Texts are measured and compared by their UTF-16 units: a character beyond the first 65536
counts as two.
-/

namespace SlidingTally.Text

def unitsOf (c : Char) : List Nat :=
  if c.toNat < 0x10000 then [c.toNat]
  else [0xD800 + (c.toNat - 0x10000) / 0x400, 0xDC00 + (c.toNat - 0x10000) % 0x400]

def units16 (cs : List Char) : List Nat := cs.flatMap unitsOf

def le16 : List Nat → List Nat → Bool
  | [], _ => true
  | _ :: _, [] => false
  | a :: as, b :: bs => a < b || (a == b && le16 as bs)

end SlidingTally.Text
