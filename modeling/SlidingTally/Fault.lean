import SlidingTally.Value

/-!
# Faults

Whatever a store call, a client or a configuration check can fail with. A fault is its
cause; its wording is `Fault.message?` and the reaction to it is `Fault.action`, which
depends on the kind alone. Main statement: `message?_eq_none_iff` says that only thrown
values without a text lack a wording.
-/

namespace SlidingTally

inductive Fault where
  /-- A store was used before it was initialized or after it was closed. -/
  | uninitialized (store : String)
  /-- A call that may succeed if it is repeated; `cause` is what the client threw. -/
  | transient (message : String) (cause : Option Fault)
  /-- A stored value that is not what its reader expects; all three as they are written. -/
  | decode (key raw expected : String)
  | plain (message : String)
  /-- A value was used as something it is not. -/
  | wrongType (message : String)
  /-- A reply of the database server that is an error, with its code. -/
  | server (message : String) (code : Value)
  /-- Something was thrown that is no error. -/
  | thrown (value : Value)

inductive FaultKind where
  | uninitialized
  | transient
  | decode
deriving DecidableEq

/-- What a caller does about a fault: hand out its default, make one fallback attempt, or
leave out the offending value. -/
inductive FaultAction where
  | returnDefault
  | retryOnce
  | skip
deriving DecidableEq

namespace FaultKind

def all : List FaultKind := [.uninitialized, .transient, .decode]

def name : FaultKind → String
  | .uninitialized => "uninitialized"
  | .transient => "transient"
  | .decode => "decode"

def action : FaultKind → FaultAction
  | .uninitialized => .returnDefault
  | .transient => .retryOnce
  | .decode => .skip

end FaultKind

def FaultAction.name : FaultAction → String
  | .returnDefault => "return_default"
  | .retryOnce => "retry_once"
  | .skip => "skip"

namespace Fault

/-- Faults that a store itself reports, as against those of a client behind it. -/
def isStoreFault : Fault → Bool
  | .uninitialized _ => true
  | .transient _ _ => true
  | .decode _ _ _ => true
  | _ => false

/-- Faults that no store reports come from its client and count as transient. -/
def kind : Fault → FaultKind
  | .uninitialized _ => .uninitialized
  | .decode _ _ _ => .decode
  | _ => .transient

def action (fault : Fault) : FaultAction := fault.kind.action

def className? : Fault → Option String
  | .uninitialized _ => some "StoreUninitializedError"
  | .transient _ _ => some "TransientStoreError"
  | .decode _ _ _ => some "DecodeError"
  | .plain _ => some "Error"
  | .wrongType _ => some "TypeError"
  | .server _ _ => some "MongoServerError"
  | .thrown _ => none

def unwritable : Fault := .wrongType "Cannot convert object to primitive value"

/-- The wording of a fault; a value that is no error is written out, if it can be. -/
def message? : Fault → Option String
  | .uninitialized store => some s!"{store} has not been initialized"
  | .transient message _ => some message
  | .decode key raw expected => some (s!"Value for {key} is not a valid {expected}: " ++ raw)
  | .plain message => some message
  | .wrongType message => some message
  | .server message _ => some message
  | .thrown value => value.toText?

def describe (fault : Fault) : Except Fault String :=
  match fault.message? with
  | some text => .ok text
  | none => .error unwritable

def cause? : Fault → Option Fault
  | .transient _ cause => cause
  | _ => none

/-- Whether an error is the very same value as the one it is compared with; all are but a
thrown NaN. -/
def identicalToItself : Fault → Bool
  | .thrown value => value.identicalToItself
  | _ => true

/-- The fault of a database server's reply; one without a message says that it is missing. -/
def ofServer (message code : Value) : Except Fault Fault :=
  let written := if message.truthy then message.toText? else some "n/a"
  match written with
  | some text => .ok (.server text code)
  | none => .error unwritable

/-- A transient fault with another one as its cause, as far as that one can be worded. -/
def because (lead : String) (cause : Fault) : Fault :=
  match cause.message? with
  | some text => .transient (lead ++ text) (some cause)
  | none => unwritable

/-- The fault that a client call reports to its caller: store faults pass unchanged, all
else becomes transient and is kept as the cause. -/
def ofClient (operation : String) (fault : Fault) : Fault :=
  if fault.isStoreFault then fault else because s!"{operation} failed: " fault

def ofOperation (operation : Value) (fault : Fault) : Fault :=
  match operation.toText? with
  | some operation => ofClient operation fault
  | none => if fault.isStoreFault then fault else unwritable

theorem message?_eq_none_iff {fault : Fault} :
    fault.message? = none ↔ ∃ value, fault = .thrown value ∧ value.toText? = none := by
  cases fault <;> simp [message?]

end Fault

end SlidingTally
