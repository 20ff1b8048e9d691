import SlidingTally.Store

/-!
# The inert store

A configuration may bring a value in place of a store that cannot do what a store does. It
fails every call, even the question whether it is initialized, so that services on it
reject.
-/

namespace SlidingTally.InertStore

def refusal (holder : String) (call : StoreCall) : Fault :=
  .wrongType (holder ++ "." ++ call.name ++ " is not a function")

/-- The inert store as callers see it that hold it under a name. Starting it is the same for
all of them. -/
def store {σ : Type} (holder : String) : CounterStore σ := fun _ call =>
  match call with
  | .start => Action.fail (refusal "store" .start)
  | call => Action.fail (refusal holder call)

end SlidingTally.InertStore
