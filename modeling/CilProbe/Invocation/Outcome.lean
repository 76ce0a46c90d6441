import CilProbe.Host

/-!
# Outcomes of invocations

An invocation completes with a value, or it ends in some other state because of a failure. A failure has a kind, a
code and a message; if it was thrown by the invoked method, it also has the type and the trace of what was thrown.
-/

namespace CilProbe

/-- Why a method is not attempted. -/
inductive Rejection where
  /-- The method has type parameters for which nothing is given. -/
  | genericDefinition (method : String)
  /-- The method, or the type that it belongs to, depends on open type parameters. -/
  | openTypeParameters (method : String)
  | dynamic (method : String)
  | native (method : String)
  /-- A reason that is a whole message. -/
  | given (message : String)
  deriving DecidableEq, Repr

def Rejection.message : Rejection → String
  | genericDefinition method => method ++ " is an open generic method definition"
  | openTypeParameters method => method ++ " contains unresolved generic parameters"
  | dynamic method => method ++ " is generated at runtime and has no file-backed body"
  | native method => method ++ " has no managed body"
  | given message => message

/-- Why an invocation did not complete. -/
inductive Failure where
  | rejected (reason : Rejection)
  | conversion (error : ConversionError)
  | instantiation (error : InstantiationError)
  | cancelled (message : String)
  /-- The invoked method threw something. -/
  | thrown (report : FaultReport)
  /-- Another failure with its code, its type and its text. -/
  | other (code typeName text : String)
  deriving Repr

namespace Failure

/-- The message of a cancellation that tells nothing else. -/
def cancelledBefore : Failure := cancelled "Invocation cancelled before dispatch"

/-- The kind that outcomes show; what is none of the other kinds counts as thrown. -/
def kind : Failure → String
  | rejected _ => "ValidationError"
  | conversion _ => "ConversionError"
  | instantiation _ => "InstantiationError"
  | cancelled _ => "Cancelled"
  | thrown _ | other .. => "InvocationFault"

def code : Failure → String
  | rejected _ => "EXEC_BLOCKED"
  | conversion _ => "PARAM_MISMATCH"
  | instantiation _ => "INSTANTIATION_FAIL"
  | cancelled _ => "CANCELLED"
  | thrown _ => "INVOKE_FAIL"
  | other code _ _ => code

def message : Failure → String
  | rejected reason => reason.message
  | conversion e => e.message
  | instantiation e => e.message
  | cancelled message => message
  | thrown report => report.message
  | other _ _ text => text

/-- The type of what was thrown; failures of the pipeline itself have their kind as type. -/
def typeName : Failure → String
  | thrown report => report.typeName
  | other _ typeName _ => typeName
  | f => f.kind

/-- The stack trace, if its text is known; only what was thrown has one. -/
def trace : Failure → Option String
  | thrown report => report.trace
  | _ => some ""

end Failure

/-- How far an invocation has come. -/
inductive InvocationState where
  | idle
  | validating
  | blocked
  | executing
  | completed
  | faulted
  | cancelled
  deriving DecidableEq, Repr

namespace InvocationState

def all : List InvocationState := [idle, validating, blocked, executing, completed, faulted, cancelled]

def name : InvocationState → String
  | idle => "Idle"
  | validating => "Validating"
  | blocked => "Blocked"
  | executing => "Executing"
  | completed => "Completed"
  | faulted => "Faulted"
  | cancelled => "Cancelled"

def ofName? (name : String) : Option InvocationState := all.find? fun state => state.name = name

end InvocationState

/-- How an invocation ended, with what was written meanwhile. -/
inductive Outcome where
  /-- The method returned. Methods without a result return a value too, which does not count. -/
  | completed (value : Value) (counts : Bool) (out err : String)
  | failed (state : InvocationState) (failure : Failure) (out err : String)
  deriving Repr

namespace Outcome

/-- An invocation that ended before the method was called. -/
def early (state : InvocationState) (failure : Failure) : Outcome := failed state failure "" ""

/-- Cancelled before the method was called. -/
def cancelled : Outcome := early .cancelled .cancelledBefore

def success : Outcome → Bool
  | completed .. => true
  | failed .. => false

def state : Outcome → InvocationState
  | completed .. => .completed
  | failed state .. => state

def failure? : Outcome → Option Failure
  | completed .. => none
  | failed _ failure _ _ => some failure

def value : Outcome → Value
  | completed value .. => value
  | failed .. => .none

def hasValue : Outcome → Bool
  | completed _ counts _ _ => counts
  | failed .. => false

/-- The result in words, if it counts. -/
def shown? (o : Outcome) : Option String := if o.hasValue then some o.value.shown else none

def out : Outcome → String
  | completed _ _ out _ | failed _ _ out _ => out

def err : Outcome → String
  | completed _ _ _ err | failed _ _ _ err => err

end Outcome

end CilProbe
