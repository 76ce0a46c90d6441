import CilProbe.Invocation.Boundary
import CilProbe.Synthesis.Instance

/-!
# The invocation pipeline

A method is called with arguments that are made from textual inputs, and on a receiver that is made if the method
needs one and none is given. Several methods are called one after the other until a cancellation.
-/

namespace CilProbe.Invocation

variable {τ μ σ : Type}

/-- The receiver and the arguments of a call. -/
def prepare (h : Host τ μ σ) (method : μ) (inputs : List (Option String)) (receiver : Value) :
    Action σ (Value × List Value) := do
  let arguments ← Synthesis.arguments h method inputs
  match receiver with
  | .none =>
    if (← h.describe method).isStatic then return (.none, arguments)
    else return (← Synthesis.instanceOf h (← h.declaringType method) Synthesis.defaultBound 0, arguments)
  | receiver => return (receiver, arguments)

/-- Prepares a method and calls it. Nothing is prepared for a method that is not attempted. -/
def run (h : Host τ μ σ) (method : μ) (inputs : List (Option String)) (receiver : Value) (cancellable : Bool) :
    Action σ Outcome := do
  if cancellable && (← Action.isCancelled) then return .cancelled
  match ← validate h method with
  | some reason => return .early .blocked (.rejected reason)
  | none =>
    match ← Action.attempt (prepare h method inputs receiver) with
    | .ok (receiver, arguments) => invoke h method receiver arguments cancellable
    | .error (.conversion e) => return .early .faulted (.conversion e)
    | .error (.instantiation e) => return .early .faulted (.instantiation e)
    | .error f => Action.fail f

/-- Calls methods in order with arguments that are made up. Once cancelled, no further method is called. -/
def runAll (h : Host τ μ σ) (cancellable : Bool) : List μ → Action σ (List Outcome)
  | [] => return []
  | method :: methods => do
    if cancellable && (← Action.isCancelled) then return []
    let outcome ← run h method [] .none cancellable
    return outcome :: (← runAll h cancellable methods)

end CilProbe.Invocation
