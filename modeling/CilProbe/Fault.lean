import CilProbe.Text.Quoted

/-!
# Faults

What can interrupt an operation. A fault is an ordinary failure, which the pipeline turns into an error value; an exit
asks the whole process to stop, and nothing here holds it back.
-/

namespace CilProbe

/-- Why textual input does not convert. -/
inductive ConversionReason where
  /-- The text is no literal of the type. -/
  | malformed
  | outOfRange (value low high : Int)
  | expectedBoolean
  | expectedCharacter
  | invalidDecimal (input : String)
  | noMember (input : String)
  /-- Arguments are refused as a whole if there are more of them than parameters. -/
  | tooManyInputs (count : Nat)
  /-- A reason that the runtime gave. -/
  | given (text : String)
  deriving DecidableEq, Repr

/-- The text of a reason; a malformed literal has none. -/
def ConversionReason.text : ConversionReason → Option String
  | malformed => none
  | outOfRange value low high => some s!"{value} is outside of [{low}, {high}]"
  | expectedBoolean => some "expected \"true\" or \"false\""
  | expectedCharacter => some "expected exactly one character"
  | invalidDecimal input => some ("invalid decimal literal " ++ Text.quoted input)
  | noMember input => some ("no enum member named " ++ Text.quoted input)
  | tooManyInputs count => some s!"{count} inputs given"
  | given text => if text.isEmpty then none else some text

/-- Textual input that does not convert to the type of its parameter. -/
structure ConversionError where
  parameter : String
  target : String
  input : Option String
  reason : ConversionReason
  deriving DecidableEq, Repr

def ConversionError.message (e : ConversionError) : String :=
  let input := (e.input.map Text.quoted).getD "None"
  s!"Cannot convert {input} for parameter \"{e.parameter}\" to {e.target}" ++
    ((e.reason.text.map (": " ++ ·)).getD "")

/-- Why no instance of a type was built. -/
inductive InstantiationReason where
  /-- The type failed before, at this nesting level, during the same construction. -/
  | failedBefore (level : Int)
  | tooDeep (bound : Int)
  | abstractType
  | interfaceType
  /-- The constructor without parameters failed with this text. -/
  | defaultFailed (text : String)
  | noConstructor
  /-- All constructors failed, the last one with this text. -/
  | allFailed (text : String)
  /-- A reason that is a whole message. -/
  | given (message : String)
  deriving DecidableEq, Repr

structure InstantiationError where
  typeName : String
  reason : InstantiationReason
  deriving DecidableEq, Repr

def InstantiationError.message (e : InstantiationError) : String :=
  match e.reason with
  | .failedBefore level => s!"{e.typeName} already failed to construct at nesting level {level}"
  | .tooDeep bound => s!"Construction of {e.typeName} exceeds the depth bound {bound}"
  | .abstractType => s!"Cannot instantiate abstract type {e.typeName}"
  | .interfaceType => s!"Cannot instantiate interface type {e.typeName}"
  | .defaultFailed text => s!"Parameterless constructor of {e.typeName} failed: {text}"
  | .noConstructor => s!"{e.typeName} has no public constructor"
  | .allFailed text => s!"No constructor of {e.typeName} succeeded: {text}"
  | .given message => message

/-- A request to leave the process, with its message. -/
inductive Exit where
  | systemExit (message : String)
  | keyboardInterrupt (message : String)
  deriving DecidableEq, Repr, Inhabited

namespace Exit

def name : Exit → String
  | systemExit _ => "SystemExit"
  | keyboardInterrupt _ => "KeyboardInterrupt"

def message : Exit → String
  | systemExit message | keyboardInterrupt message => message

/-- The request of a kind. -/
def ofName? (name message : String) : Option Exit :=
  [systemExit message, keyboardInterrupt message].find? fun exit => exit.name = name

end Exit

/-- An ordinary failure. It is up to the host whether its text can be taken. -/
inductive Fault where
  /-- A failure of a named kind. Some kinds show their message in quotes. -/
  | error (kind message : String) (quoted : Bool)
  /-- An exception object of the managed runtime, which describes itself; `text` is what it shows on this side. -/
  | managed (typeName message trace text : String)
  /-- What reflection puts around an exception of invoked code. -/
  | wrapper (kind text : String) (inner : Option Fault)
  /-- A request to leave the process that was held back by a wrapper. -/
  | carried (exit : Exit)
  | conversion (error : ConversionError)
  | instantiation (error : InstantiationError)
  /-- A parameter whose position, counted from the end, lies before the first input. -/
  | noInputAt (position : Int)
  deriving Repr, Inhabited

namespace Fault

/-- A write to a stream that is closed, or a question for its text. -/
def closedFile : Fault := error "ValueError" "I/O operation on closed file" false

/-- The text of a failure whose text can be taken. -/
def text : Fault → String
  | error _ message quoted => if quoted then Text.quoted message else message
  | wrapper _ text _ => text
  | managed _ _ _ text => text
  | carried exit => exit.message
  | conversion e => e.message
  | instantiation e => e.message
  | noInputAt position => s!"no input at position {position}"

/-- The type under which a failure is reported. -/
def typeName : Fault → String
  | error kind _ _ | wrapper kind _ _ => kind
  | managed typeName _ _ _ => typeName
  | carried exit => exit.name
  | conversion _ => "ConversionError"
  | instantiation _ => "InstantiationError"
  | noInputAt _ => "IndexError"

/-- What a wrapper holds. -/
def inner? : Fault → Option Fault
  | wrapper _ _ inner => inner
  | _ => none

end Fault

/-- Whatever interrupts an operation. -/
inductive Raised where
  | fault (fault : Fault)
  | exit (exit : Exit)
  deriving Repr, Inhabited

/-- What a wrapper holds of an interruption. -/
def Raised.held : Raised → Fault
  | fault f => f
  | exit e => .carried e

end CilProbe
