import CilProbe.Invocation.Outcome

/-!
# The invocation boundary

The only place where methods are called. A method is validated first. Its call then holds the lock and has streams of
its own, and whatever the method throws becomes part of the outcome; only requests to leave the process pass through.
-/

namespace CilProbe.Invocation

variable {τ μ σ : Type}

/-- How many wrappers are taken off a failure at most. -/
def maxWrappers : Nat := 16

/-- Why a method of a kind is not attempted. -/
def rejectionOfKind (method : String) : MethodKind → Option Rejection
  | .dynamic => some (.dynamic method)
  | .native => some (.native method)
  | _ => none

def validateDescribed (h : Host τ μ σ) (method : μ) (m : Method) : Action σ (Option Rejection) := do
  if m.isGenericDefinition then return some (.genericDefinition m.id)
  if m.containsGenericParameters then return some (.openTypeParameters m.id)
  return rejectionOfKind m.id (← h.methodKind method)

/-- Decides whether a method may be attempted. -/
def validate (h : Host τ μ σ) (method : μ) : Action σ (Option Rejection) := do
  validateDescribed h method (← h.describe method)

/-- Takes wrappers off a failure, up to a number of them. -/
def unwrapped (h : Host τ μ σ) : Nat → Fault → Action σ Fault
  | 0, f => return f
  | n + 1, f => do
    match ← h.unwrap f with
    | some inner => unwrapped h n inner
    | none => return f

/-- Calls a method and waits for its result if need be. The result of a method that returns nothing does not count; a
null reference does. -/
def call (h : Host τ μ σ) (method : μ) (m : Method) (receiver : Value) (arguments : List Value) :
    Action σ (Bool × Value) := do
  let result ← h.invoke method receiver arguments
  if ← h.isAwaitable result then h.awaitResult result
  else return (m.returnType != TypeName.void, result)

/-- Calls a method and reports what it throws. -/
def guarded (h : Host τ μ σ) (method : μ) (m : Method) (receiver : Value) (arguments : List Value) :
    Action σ (Except FaultReport (Bool × Value)) := do
  match ← Action.attempt (call h method m receiver arguments) with
  | .ok result => return .ok result
  | .error f => return .error (← h.report (← unwrapped h maxWrappers f))

/-- Executes a method with its receiver and arguments. If `cancellable`, a cancellation counts until the call. -/
def invoke (h : Host τ μ σ) (method : μ) (receiver : Value) (arguments : List Value) (cancellable : Bool) :
    Action σ Outcome := do
  let m ← h.describe method
  match ← validateDescribed h method m with
  | some reason => return .early .blocked (.rejected reason)
  | none =>
    Action.exclusively do
      if cancellable && (← Action.isCancelled) then return .cancelled
      let ended ← Action.captured h.redirectsConsole (guarded h method m receiver arguments)
      match ended.result with
      | .ok (counts, v) => return .completed v counts ended.out ended.err
      | .error report => return .failed .faulted (.thrown report) ended.out ended.err

end CilProbe.Invocation
