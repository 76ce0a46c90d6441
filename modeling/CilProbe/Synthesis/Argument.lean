import CilProbe.Conversion
import CilProbe.Host
import CilProbe.Position

/-!
# Arguments

The value of a parameter: text that was given for it is converted; without text the declared default counts; and
without either there is a default for the type.
-/

namespace CilProbe.Synthesis

variable {τ μ σ : Type}

/-- The value that a runtime gives a value type, or the null value. The text of a failure is taken for the record. -/
def runtimeDefault (h : Host τ μ σ) (type : τ) : Action σ Value := do
  match ← Action.attempt (h.createDefault type) with
  | .ok v => return v
  | .error f =>
    let _ ← h.text f
    return .none

/-- The default of a type. The null value for a value type means that there is none, and a call will likely fail. -/
def defaultOf (h : Host τ μ σ) (type : τ) : Action σ Value := do
  match Conversion.default? (← h.typeName type) with
  | some v => return v
  | none =>
    match ← h.typeKind type with
    | .enum =>
      match ← h.enumMembers type with
      | (_, v) :: _ => return v
      | [] => runtimeDefault h type
    | .array => h.newArray (← h.elementType type) 0
    | .string => return .text ""
    | .value => runtimeDefault h type
    | _ => return .none

/-- Converts text to a type that is no string type. -/
def readerFor (h : Host τ μ σ) (p : Parameter τ) (kind : TypeKind) (text : String) : Action σ Value := do
  let answer (read : Except ConversionReason Value) : Action σ Value :=
    match read with
    | .ok v => return v
    | .error reason => Action.fail (.conversion ⟨p.name, p.typeName, some text, reason⟩)
  if kind = .enum then answer (Conversion.enumMember (← h.enumMembers p.type) text)
  else
    match Conversion.reader? p.typeName with
    | some read => answer (read text)
    | none => h.convert text p.type

/-- Converts text for a parameter. Whatever fails becomes a conversion error of this parameter, unless it is a
conversion error already or has no text to tell. -/
def convert (h : Host τ μ σ) (p : Parameter τ) (text : String) : Action σ Value := do
  let kind ← h.typeKind p.type
  if kind = .string then return .text text
  match ← Action.attempt (readerFor h p kind text) with
  | .ok v => return v
  | .error (.conversion e) => Action.fail (.conversion e)
  | .error f => Action.fail (.conversion ⟨p.name, p.typeName, some text, .given (← h.text f)⟩)

/-- The value of a parameter. -/
def resolve (h : Host τ μ σ) (p : Parameter τ) : Option String → Action σ Value
  | some text => convert h p text
  | none =>
    match p.isOptional, p.declared with
    | true, some v => return v
    | _, _ => defaultOf h p.type

/-- The input for a position. Positions behind the last input have none; it is a failure to lie before the first one. -/
def inputAt (inputs : List (Option String)) (position : Int) : Except Fault (Option String) :=
  match Position.at? inputs position with
  | some input => .ok input
  | none => if position < 0 then .error (.noInputAt position) else .ok none

/-- The values of parameters, one after the other. -/
def resolveAll (h : Host τ μ σ) (inputs : List (Option String)) : List (Parameter τ) → Action σ (List Value)
  | [] => return []
  | p :: ps => do
    match inputAt inputs p.position with
    | .error f => Action.fail f
    | .ok input =>
      let v ← resolve h p input
      return v :: (← resolveAll h inputs ps)

/-- More inputs than parameters. -/
def tooManyInputs (parameters : Nat) (inputs : List (Option String)) : ConversionError where
  parameter := "<arguments>"
  target := s!"{parameters} parameters"
  input := some (" ".intercalate (inputs.map fun input => input.getD "None"))
  reason := .tooManyInputs inputs.length

/-- The arguments of a method. Inputs go by position; one that is missing is made up. -/
def arguments (h : Host τ μ σ) (method : μ) (inputs : List (Option String)) : Action σ (List Value) := do
  let parameters ← h.parameters method
  if parameters.length < inputs.length then Action.fail (.conversion (tooManyInputs parameters.length inputs))
  resolveAll h inputs parameters

end CilProbe.Synthesis
