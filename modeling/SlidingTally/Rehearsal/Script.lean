import SlidingTally.Value.Access

/-!
# Scripts

A rehearsal runs the counters against collaborators that follow a script. For each method a
`Script` holds a queue of answers, and every call of the method takes the first one. An
answer may stand for several calls in a row, or for all that follow.
-/

namespace SlidingTally.Rehearsal

inductive Answer where
  | reply (value : Value)
  | fault (failure : Fault)
  /-- Leaves the call to the real collaborator. -/
  | pass
  /-- Answers by the key that is asked for; an absent key has a null. -/
  | byKey (answers : List (String × Except Fault Value))

/-- An answer and for how many more calls it stands, none for ever. -/
structure Cue where
  answer : Answer
  times : Option Nat := some 1

abbrev Script := List (String × List Cue)

namespace Script

def extend (script : Script) (method : String) (cues : List Cue) : Script :=
  let cues := cues.filter fun cue => cue.times ≠ some 0
  match script with
  | [] => [(method, cues)]
  | (name, queue) :: rest =>
    if name = method then (name, queue ++ cues) :: rest
    else (name, queue) :: extend rest method cues

def advance : List Cue → List Cue
  | [] => []
  | cue :: rest =>
    match cue.times with
    | none => cue :: rest
    | some times => if times ≤ 1 then rest else { cue with times := some (times - 1) } :: rest

def next (script : Script) (method : String) : Option Answer × Script :=
  match script with
  | [] => (none, [])
  | (name, queue) :: rest =>
    if name = method then (queue.head?.map Cue.answer, (name, advance queue) :: rest)
    else
      let (answer, after) := next rest method
      (answer, (name, queue) :: after)

end Script

-- ---------------------------------------------------------------------------
-- Reading answers
-- ---------------------------------------------------------------------------

namespace Answer

def answerFor (answers : List (String × Except Fault Value)) (key : String) :
    Except Fault Value :=
  (answers.lookup key).getD (.ok .null)

def replyFor (answer : Answer) (key : Value) : Except Fault Value :=
  match answer with
  | .reply value => .ok value
  | .fault failure => .error failure
  | .pass => .ok .undefined
  | .byKey answers => do answerFor answers (← key.asText)

def plainReply (answer : Answer) : Except Fault Value :=
  match answer with
  | .reply value => .ok value
  | .fault failure => .error failure
  | _ => .ok .undefined

end Answer

end SlidingTally.Rehearsal
