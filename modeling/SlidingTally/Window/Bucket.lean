import SlidingTally.Value

/-!
# Buckets

A trailing window is approximated by summing buckets of one width. The width grows with
the window, to limit how many keys one read touches. `Bucket.range` gives the buckets that
a window covers at a moment, `Bucket.keys?` their keys in ascending order, and
`Bucket.ttl` the lifetime of a new bucket, which every window that reads it fits into.
-/

namespace SlidingTally

structure BucketRange where
  first : Binary64
  last : Binary64
deriving DecidableEq

namespace Bucket

/-- The width of one bucket in seconds for a window of the given length in seconds. -/
def width (window : Binary64) : Binary64 :=
  if window.le 300 then 1
  else if window.le 3600 then 10
  else if window.le 86400 then 60
  else 600

def id (seconds width : Binary64) : Binary64 := (seconds / width).floor

def keyText (name window id : String) : String := name ++ ":w" ++ window ++ ":b" ++ id

def key (name : String) (window id : Binary64) : String := keyText name window.text id.text

/-- The buckets from the start of the window to now, both in seconds. -/
def range (now window : Binary64) : BucketRange :=
  ⟨id (now - window) (width window), id now (width window)⟩

-- ---------------------------------------------------------------------------
-- Enumeration
-- ---------------------------------------------------------------------------

/-- Counts up by one until the last id is passed. Where adding one changes nothing any
more, the count never ends and there is no list. -/
def idsFrom (last : Binary64) : (fuel : Nat) → Binary64 → Option (List Binary64)
  | 0, _ => none
  | fuel + 1, id =>
    if id.le last then
      if id + 1 = id then none
      else (idsFrom last fuel (id + 1)).map (id :: ·)
    else some []

/-- More steps than the count can take: each one that changes the id adds at least a half. -/
def steps (range : BucketRange) : Nat :=
  2 * ((range.last.units - range.first.units).toNat / unitsPerOne) + 5

def ids? (range : BucketRange) : Option (List Binary64) :=
  idsFrom range.last (steps range) range.first

def keys? (name : String) (window : Binary64) (range : BucketRange) : Option (List String) :=
  (ids? range).map fun ids => ids.map (key name window)

-- ---------------------------------------------------------------------------
-- Lifetime
-- ---------------------------------------------------------------------------

/-- The time to live of a new bucket in seconds: what was requested, but at least `least` and
at most twice the window, which is also what it gets without a request in finite numbers. -/
def ttlAtLeast (least window : Binary64) (requested : Value) : Binary64 :=
  let ceiling := window * 2
  let wanted := match requested.number? with
    | some seconds => if seconds.isFinite then seconds else ceiling
    | none => ceiling
  Binary64.max least (Binary64.min wanted ceiling)

/-- The time to live of a new bucket: at least the window and one bucket, so that the bucket
outlives every window that reads it. -/
def ttl (window : Binary64) (requested : Value) : Binary64 :=
  ttlAtLeast (window + width window) window requested

end Bucket

end SlidingTally
