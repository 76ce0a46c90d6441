import CilProbe.Host.Script

/-!
# Scripted hosts

A host without a runtime: its types are entries of a table, its constructors and methods are scripts, and it remembers
what was called. Types and methods are known by their keys in the tables.
-/

namespace CilProbe

structure ScriptedParameter where
  name : String
  type : String
  position : Int
  isOptional : Bool
  declared : Option Value

structure ScriptedConstructor where
  parameters : List ScriptedParameter
  body : Script

structure ScriptedType where
  name : String
  kind : TypeKind
  members : List (String × Value)
  element : String
  /-- The value that the runtime makes without a constructor. -/
  created : Option Value
  /-- The texts that convert. -/
  conversions : List (String × Value)
  /-- With this error all conversions fail. -/
  conversionError : Option ConversionError
  constructors : List ScriptedConstructor

structure ScriptedMethod where
  type : String
  name : String
  parameters : List ScriptedParameter
  returnType : String
  isStatic : Bool
  isGenericDefinition : Bool
  containsGenericParameters : Bool
  kind : MethodKind
  /-- The number of wrappers that come around what the body throws. -/
  wrappers : Nat
  body : Script

structure ScriptedTables where
  types : List (String × ScriptedType)
  methods : List (String × ScriptedMethod)

/-- A method by its key, or a constructor by the key of its type and its position. -/
inductive ScriptedCallable where
  | method (key : String)
  | constructor (type : String) (index : Nat)

/-- A constructor that was called. -/
structure Built where
  typeName : String
  index : Nat
  arguments : List Value
  succeeded : Bool

/-- What a scripted host remembers. -/
structure ScriptedRecord where
  /-- The methods called, with receivers and arguments. -/
  calls : Array (String × Value × List Value) := #[]
  /-- The constructors called, in the order of the calls. -/
  built : Array Built := #[]
  /-- How often the constructors of a type were asked for. -/
  lookups : Nat := 0

namespace ScriptedTables

variable {α : Type}

abbrev Act (α : Type) := Action ScriptedRecord α

private def find (table : List (String × α)) (key : String) : Act α :=
  match table.lookup key with
  | some x => return x
  | none => Action.fail (.error "KeyError" key true)

private def typeNameOf (t : ScriptedTables) (key : String) : Act String := do return (← find t.types key).name

private def constructorOf (t : ScriptedTables) (type : String) (index : Nat) : Act ScriptedConstructor := do
  match (← find t.types type).constructors[index]? with
  | some c => return c
  | none => Action.fail (.error "KeyError" type true)

/-- Puts wrappers around a failure. -/
def wrapped : Nat → Fault → Fault
  | 0, f => f
  | n + 1, f =>
    .wrapper "InvocationWrapper" "Exception has been thrown by the target of an invocation." (some (wrapped n f))

private def parametersOf (t : ScriptedTables) : ScriptedCallable → Act (List (Parameter String))
  | .method key => do withNames (← find t.methods key).parameters
  | .constructor type index => do withNames (← constructorOf t type index).parameters
where
  withNames : List ScriptedParameter → Act (List (Parameter String))
    | [] => return []
    | p :: ps => do
      let typeName ← typeNameOf t p.type
      let first : Parameter String :=
        { name := p.name, type := p.type, typeName, position := p.position, isOptional := p.isOptional,
          declared := p.declared }
      return first :: (← withNames ps)

private def construct (t : ScriptedTables) (callable : ScriptedCallable) (arguments : List Value) : Act Value := do
  match callable with
  | .method key => Action.fail (.error "KeyError" key true)
  | .constructor type index =>
    let typeName ← typeNameOf t type
    let body := (← constructorOf t type index).body
    let built : Built := { typeName, index, arguments, succeeded := false }
    let count : Nat ← fun s => (.ok s.host.built.size, s)
    Action.remember fun r => { r with built := r.built.push built }
    let returned ← body.run .none arguments
    Action.remember fun r => { r with built := r.built.modify count fun b => { b with succeeded := true } }
    return returned.getD (.object typeName arguments)

private def describe (t : ScriptedTables) : ScriptedCallable → Act Method
  | .constructor type _ => do return { declaringType := ← typeNameOf t type, name := ".ctor" }
  | .method key => do
    let m ← find t.methods key
    let parameters ← parametersOf t (.method key)
    return {
      declaringType := ← typeNameOf t m.type
      name := m.name
      parameterTypes := parameters.map (·.typeName)
      returnType := m.returnType
      isStatic := m.isStatic
      isGenericDefinition := m.isGenericDefinition
      containsGenericParameters := m.containsGenericParameters
      assembly := "Json" }

private def invoke (t : ScriptedTables) (callable : ScriptedCallable) (receiver : Value) (arguments : List Value) :
    Act Value := do
  match callable with
  | .constructor type _ => Action.fail (.error "KeyError" type true)
  | .method key =>
    let m ← find t.methods key
    Action.remember fun r => { r with calls := r.calls.push (key, receiver, arguments) }
    match ← Action.attempt (m.body.run receiver arguments) with
    | .ok returned => return returned.getD .none
    | .error f => Action.fail (wrapped m.wrappers f)

/-- Waits for a result. -/
private def awaitResult : Value → Act (Bool × Value)
  | .task typed v => return (typed, if typed then v else .none)
  | .promise v => return (true, v)
  | .failedPromise raised => throw raised
  | v => return (true, v)

def host (t : ScriptedTables) : Host String ScriptedCallable ScriptedRecord where
  typeName := typeNameOf t
  typeKind key := do return (← find t.types key).kind
  enumMembers key := do return (← find t.types key).members
  elementType key := do return (← find t.types key).element
  newArray element length := do return .array (← typeNameOf t element) (List.replicate length.toNat .none)
  createDefault key := do
    let type ← find t.types key
    match type.created with
    | some v => return v
    | none => Action.fail (.error "TypeError" (type.name ++ " has no default constructor") false)
  convert text key := do
    let type ← find t.types key
    match type.conversionError, type.conversions.lookup text with
    | some e, _ => Action.fail (.conversion e)
    | none, some v => return v
    | none, none => Action.fail (.error "ValueError" ("no conversion to " ++ type.name) false)
  constructors key := do
    Action.remember fun r => { r with lookups := r.lookups + 1 }
    let type ← find t.types key
    return (List.range type.constructors.length).map (.constructor key)
  parameters := parametersOf t
  construct := construct t
  declaringType
    | .method key => do return (← find t.methods key).type
    | .constructor type _ => return type
  describe := describe t
  methodKind
    | .method key => do return (← find t.methods key).kind
    | .constructor .. => return .managed
  invoke := invoke t
  isAwaitable v := return match v with
    | .task .. | .promise _ | .failedPromise _ => true
    | _ => false
  awaitResult := awaitResult
  text f := return f.text
  unwrap f := return f.inner?
  report f := return f.report
  redirectsConsole := false

end ScriptedTables

end CilProbe
