import CilProbe.Host
import CilProbe.Position

/-!
# Scripts

A method whose effects are known is a list of steps: it writes, closes a stream of the process, asks for cancellation,
throws or returns.
-/

namespace CilProbe

/-- What a script returns. -/
inductive Returned where
  | value (value : Value)
  /-- The argument at a position; negative positions count from the end. -/
  | argument (position : Int)
  | arguments
  | receiver

inductive ScriptStep where
  | write (place : Place) (text : String)
  | closeOut
  | closeErr
  | cancel
  | throwing (raised : Raised)
  | returning (what : Returned)

abbrev Script := List ScriptStep

namespace Script

variable {σ : Type}

/-- Runs a script. What stands behind a step that throws or returns is not run; nothing is the result of a script
that does not return. -/
def run (receiver : Value) (arguments : List Value) : Script → Action σ (Option Value)
  | [] => return none
  | .write place text :: rest => do
    Action.write place text
    run receiver arguments rest
  | .closeOut :: rest => do
    Action.close .out
    run receiver arguments rest
  | .closeErr :: rest => do
    Action.close .err
    run receiver arguments rest
  | .cancel :: rest => do
    Action.setCancelled true
    run receiver arguments rest
  | .throwing raised :: _ => throw raised
  | .returning (.value v) :: _ => return some v
  | .returning .arguments :: _ => return some (.list arguments)
  | .returning .receiver :: _ => return some receiver
  | .returning (.argument position) :: _ =>
    match Position.at? arguments position with
    | some v => return some v
    | none => Action.fail (.error "IndexError" "list index out of range" false)

end Script

end CilProbe
