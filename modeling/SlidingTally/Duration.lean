/-!
# Durations

Common times to live, in seconds.
-/

namespace SlidingTally.Duration

def second : Nat := 1

def minute : Nat := 60 * second

def fiveMinutes : Nat := 5 * minute

def tenMinutes : Nat := 10 * minute

def thirtyMinutes : Nat := 30 * minute

def hour : Nat := 60 * minute

def day : Nat := 24 * hour

def week : Nat := 7 * day

def all : List Nat :=
  [second, minute, fiveMinutes, tenMinutes, thirtyMinutes, hour, day, week]

end SlidingTally.Duration
