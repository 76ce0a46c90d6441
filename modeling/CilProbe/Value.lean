import CilProbe.Binary64.Text
import CilProbe.DateTime
import CilProbe.Decimal.Basic
import CilProbe.Fault
import CilProbe.Guid

/-!
# Values

Arguments, receivers and results of invocations. Plain values stand for themselves; objects of the managed runtime
are known by their type and by how they came about; and a value may be a computation that has to be waited for.
-/

namespace CilProbe

inductive Value where
  | none
  | bool (value : Bool)
  | int (value : Int)
  | real (value : Binary64)
  | text (value : String)
  | decimal (value : Decimal)
  | guid (value : Guid)
  | dateTime (value : DateTime)
  | timeSpan (value : TimeSpan)
  | list (items : List Value)
  /-- An instance that a constructor made of these arguments. -/
  | object (typeName : String) (arguments : List Value)
  | array (element : String) (items : List Value)
  /-- The answer of a runtime function that is only recorded. -/
  | call (function : String) (arguments : List Value)
  /-- An object of which only the type is known, by its key. -/
  | managed (type : String)
  /-- A task that ends with a result, which counts as a value if the task is typed. -/
  | task (typed : Bool) (result : Value)
  /-- An awaitable without a result type. -/
  | promise (result : Value)
  | failedPromise (failure : Raised)
  /-- A task object of the runtime, possibly faulted. -/
  | managedTask (type : String) (result : Value) (failure : Option Raised)
  /-- A value that wraps a task object of the runtime. -/
  | valueTask (type : String) (inner : Value)
  deriving Repr, Inhabited

namespace Value

mutual

/-- The text in which a value is shown, with quotes around text. -/
def shown : Value → String
  | none => "None"
  | bool b => if b then "True" else "False"
  | int n => toString n
  | real x => x.toText
  | text s => Text.quoted s
  | decimal d => "Decimal('" ++ d.toText ++ "')"
  | guid g => "UUID('" ++ g.toText ++ "')"
  | dateTime t => t.toText
  | timeSpan t => t.toText
  | list items => "[" ++ ", ".intercalate (shownAll items) ++ "]"
  | object typeName _ => "<" ++ typeName ++ ">"
  | array element _ => "<" ++ element ++ ">"
  | call function _ => "<" ++ function ++ ">"
  | managed type | managedTask type _ _ | valueTask type _ => "<" ++ type ++ ">"
  | task .. | promise _ | failedPromise _ => "<task>"

private def shownAll : List Value → List String
  | [] => []
  | v :: vs => shown v :: shownAll vs

end

/-- The text of a value, without quotes around text. -/
def plain : Value → String
  | text s => s
  | v => v.shown

/-- The text of a failure that was made of some values: of one value its text, of several all of them in brackets. -/
def textOfAll : List Value → String
  | [] => ""
  | [v] => v.plain
  | vs => "(" ++ ", ".intercalate (vs.map shown) ++ ")"

/-- What stands behind an opcode whose operand is a value; nothing for the null value. -/
def operandText : Value → Option String
  | none => Option.none
  | v => some v.shown

end Value

end CilProbe
