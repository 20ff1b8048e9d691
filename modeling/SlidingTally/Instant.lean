import SlidingTally.Number.Numeral

/-!
# Instants

An instant is a whole number of milliseconds since the epoch, within a hundred million days of
it. `Instant.ofNumber` drops the fraction toward zero and makes every number beyond that
range, and NaN, the invalid instant. `Instant.text` writes the date and the time of day in
universal time.
-/

namespace SlidingTally

inductive Instant where
  | invalid
  | at (milliseconds : Int)
deriving DecidableEq

namespace Instant

def limit : Int := 8640000000000000

def ofNumber (x : Binary64) : Instant :=
  match x.trunc.toInt? with
  | some milliseconds =>
    if -limit ≤ milliseconds ∧ milliseconds ≤ limit then .at milliseconds else .invalid
  | none => .invalid

/-- Milliseconds since the epoch; the invalid instant is NaN. -/
def toNumber : Instant → Binary64
  | .invalid => .nan
  | .at milliseconds => .ofInt milliseconds

def before : Instant → Instant → Bool
  | .at a, .at b => a < b
  | _, _ => false

-- ---------------------------------------------------------------------------
-- The calendar
-- ---------------------------------------------------------------------------

/-- A day of the calendar; the first month is one, and so is the first day. -/
structure Date where
  year : Int
  month : Nat
  day : Nat
deriving DecidableEq

/-- Days from the first of March of year zero to the epoch. -/
def daysToEpoch : Int := 719468

def daysInCycle : Nat := 146097

/-- The date of a day counted from the epoch. Years are taken to begin in March, so that a
leap day ends one. -/
def dateOfDay (day : Int) : Date :=
  let cycle := Int.fdiv (day + daysToEpoch) daysInCycle
  let inCycle := (Int.fmod (day + daysToEpoch) daysInCycle).toNat
  let year := (inCycle - inCycle / 1460 + inCycle / 36524 - inCycle / 146096) / 365
  let inYear := inCycle - (365 * year + year / 4 - year / 100)
  let fromMarch := (5 * inYear + 2) / 153
  let month := if fromMarch < 10 then fromMarch + 3 else fromMarch - 9
  ⟨year + cycle * 400 + (if month ≤ 2 then 1 else 0), month, inYear - (153 * fromMarch + 2) / 5 + 1⟩

-- ---------------------------------------------------------------------------
-- Text
-- ---------------------------------------------------------------------------

def millisecondsInDay : Nat := 86400000

def weekdayNames : List String := ["Thu", "Fri", "Sat", "Sun", "Mon", "Tue", "Wed"]

def monthNames : List String :=
  ["Jan", "Feb", "Mar", "Apr", "May", "Jun", "Jul", "Aug", "Sep", "Oct", "Nov", "Dec"]

def padded (width n : Nat) : String :=
  let digits := Nat.toDigits 10 n
  String.ofList (List.replicate (width - digits.length) '0' ++ digits)

def yearText (year : Int) : String :=
  (if year < 0 then "-" else "") ++ padded 4 year.natAbs

def dateText (day : Int) : String :=
  let date := dateOfDay day
  " ".intercalate [weekdayNames[(Int.fmod day 7).toNat]?.getD "",
    monthNames[date.month - 1]?.getD "", padded 2 date.day, yearText date.year]

def timeText (seconds : Nat) : String :=
  ":".intercalate [padded 2 (seconds / 3600), padded 2 (seconds / 60 % 60), padded 2 (seconds % 60)]

def text : Instant → String
  | .invalid => "Invalid Date"
  | .at milliseconds =>
    dateText (Int.fdiv milliseconds millisecondsInDay) ++ " " ++
      timeText ((Int.fmod milliseconds millisecondsInDay).toNat / 1000) ++
      " GMT+0000 (Coordinated Universal Time)"

end Instant

end SlidingTally
