import CilProbe.Host.Script

/-!
# Hosts by reflection

The host of a managed runtime, over what reflection reports of its types and methods. Both are known by keys. Values
that come from outside are turned into values of the runtime by `marshal` before a call; the functions of the runtime
that make them are recorded as calls. What was asked of reflection on the way is logged.
-/

namespace CilProbe

/-- What reflection reports of a type. -/
structure ReflectedType where
  /-- Some types, like type parameters, have no full name. -/
  fullName : Option String
  name : String
  isEnum : Bool
  isArray : Bool
  isInterface : Bool
  isAbstract : Bool
  isValueType : Bool
  isPrimitive : Bool
  isByRef : Bool
  isGenericType : Bool
  base : Option String
  element : Option String
  /-- The full name of the generic type that this one instantiates. -/
  definition : Option String
  arguments : List String
  /-- The public static fields; those of an enumeration are its members. -/
  fields : List (String × Value)
  constructors : List String
  /-- The methods that the type declares, unless they cannot be listed. -/
  methods : Option (List String)
  assembly : String

/-- A declared default value, which may be the marker for a missing one. -/
inductive DeclaredDefault where
  | missing
  | value (value : Value)

structure ReflectedParameter where
  name : Option String
  type : String
  isOptional : Bool
  declared : Option DeclaredDefault

/-- What comes of the question for the body of a method. -/
inductive BodyAnswer where
  | body
  | none
  | failure

/-- What reflection reports of a method or constructor. -/
structure ReflectedMethod where
  name : String
  declaringType : Option String
  /-- Constructors have no return type. -/
  returnType : Option String
  isStatic : Bool
  isAbstract : Bool
  isGenericMethod : Bool
  isGenericMethodDefinition : Bool
  containsGenericParameters : Bool
  parameters : List ReflectedParameter
  token : Option Nat
  /-- The name of the reflection class that describes the method. -/
  reflectedAs : String
  body : BodyAnswer
  /-- What happens when the method is invoked. -/
  script : Script

/-- What was asked of reflection. -/
inductive Access where
  | fields (flags : Nat)
  | methods (type : ReflectedType) (flags : Nat)
  | invoke (method : String) (arguments : List Value)

structure Reflection where
  types : List (String × ReflectedType)
  methods : List (String × ReflectedMethod)

namespace ReflectedType

/-- The full name, or else the name. -/
def displayName (t : ReflectedType) : String :=
  match t.fullName with
  | some name => if name.isEmpty then t.name else name
  | none => t.name

/-- The full name as a value; the null value if there is none. -/
def fullNameValue (t : ReflectedType) : Value := (t.fullName.map .text).getD .none

def kind (t : ReflectedType) : TypeKind :=
  if t.fullName = some "System.String" then .string
  else if t.isEnum then .enum
  else if t.isArray then .array
  else if t.isInterface then .interface
  else if t.isAbstract then .abstractClass
  else if t.isValueType then .value
  else .plainClass

/-- Whether the values of the type wrap a task. -/
def isValueTask (t : ReflectedType) : Bool :=
  "System.Threading.Tasks.ValueTask".toList.isPrefixOf (t.fullName.getD "").toList

end ReflectedType

namespace Reflection

/-- The flags by which members are chosen. -/
def declaredOnly : Nat := 2
def instanceMembers : Nat := 4
def staticMembers : Nat := 8
def publicMembers : Nat := 16
def nonPublicMembers : Nat := 32

/-- The invariant culture, in which numbers and dates are read. -/
def invariant : Value := .text "invariant"

variable {α : Type}

abbrev Act (α : Type) := Action (Array Access) α

private def log (access : Access) : Act Unit := Action.remember fun accesses => accesses.push access

private def find (table : List (String × α)) (key : String) : Act α :=
  match table.lookup key with
  | some x => return x
  | none => Action.fail (.error "KeyError" key true)

/-- What a reference to something that is not there leads to. -/
private def missing (member : String) : Fault := .error "AttributeError" ("no " ++ member) false

/-! ### Marshalling -/

/-- Turns a value into one of the runtime for a parameter of a type. -/
def marshalFor (type : ReflectedType) : Value → Value
  | .guid g => .call "Guid.Parse" [.text g.toText]
  | .dateTime t =>
    if t = .first then .call "DateTime.MinValue" [] else .call "DateTime.Parse" [.text t.isoText, invariant]
  | .timeSpan t => .call "TimeSpan.FromTicks" [.int t.ticks]
  | .decimal d => .call "Decimal.Parse" [.text d.toText, invariant]
  | .text s => if type.fullName = some "System.String" then .text s else primitive (.text s)
  | .bool b => primitive (.bool b)
  | .int n => primitive (.int n)
  | .real x => primitive (.real x)
  | v => v
where
  /-- Text, numbers and truth values become values of primitive types by way of their text. -/
  primitive (v : Value) : Value :=
    if type.isPrimitive then .call "ChangeType" [.text v.plain, type.fullNameValue, invariant] else v

/-- Turns a value into one of the runtime. A parameter by reference counts as one of the type that it refers to. -/
def marshal (r : Reflection) (type : ReflectedType) (v : Value) : Value :=
  let target := if type.isByRef then (type.element.bind fun key => r.types.lookup key).getD type else type
  marshalFor target v

/-- The arguments as values of the runtime; those without a parameter are left out. -/
private def marshalAll (r : Reflection) : List Value → List ReflectedParameter → Act (List Value)
  | v :: vs, p :: ps => do
    let first := r.marshal (← find r.types p.type) v
    return first :: (← marshalAll r vs ps)
  | _, _ => return []

/-- Invokes a member; `targets` are the receivers, of which a constructor has none. -/
private def invokeOn (r : Reflection) (key : String) (targets arguments : List Value) : Act Value := do
  let m ← find r.methods key
  let marshalled ← marshalAll r arguments m.parameters
  log (.invoke key (targets ++ [.list marshalled]))
  let returned ← m.script.run .none marshalled
  return returned.getD (.call "invoked" [.text key])

/-! ### Methods -/

private def parametersOf (r : Reflection) (key : String) : Act (List (Parameter String)) := do
  describeFrom 0 (← find r.methods key).parameters
where
  describeFrom : Nat → List ReflectedParameter → Act (List (Parameter String))
    | _, [] => return []
    | position, p :: ps => do
      let name := match p.name with
        | some name => if name.isEmpty then s!"arg{position}" else name
        | none => s!"arg{position}"
      let declared := p.declared.map fun
        | .missing => Value.none
        | .value v => v
      let typeName := (← find r.types p.type).displayName
      let first : Parameter String := { name, type := p.type, typeName, position, isOptional := p.isOptional, declared }
      return first :: (← describeFrom (position + 1) ps)

private def describe (r : Reflection) (key : String) : Act Method := do
  let m ← find r.methods key
  let owner : Option ReflectedType ← match m.declaringType with
    | some type => some <$> find r.types type
    | none => pure none
  let returnType ← match m.returnType with
    | some type => do pure (← find r.types type).displayName
    | none => pure TypeName.void
  let parameters ← parametersOf r key
  return {
    declaringType := (owner.map (·.displayName)).getD "<Dynamic>"
    name := m.name
    parameterTypes := parameters.map (·.typeName)
    returnType
    isStatic := m.isStatic
    isGenericDefinition := m.isGenericMethodDefinition
    hasGenericArguments := m.isGenericMethod && !m.isGenericMethodDefinition
    containsGenericParameters := m.containsGenericParameters
    assembly := (owner.map (·.assembly)).getD ""
    token := m.token.getD 0 }

/-- The kind of a method. Reflection shows methods that are made at runtime by classes of their own. -/
private def methodKindOf (r : Reflection) (key : String) : Act MethodKind := do
  let m ← find r.methods key
  match m.declaringType with
  | none => return .dynamic
  | some type =>
    if ["DynamicMethod", "RTDynamicMethod"].contains m.reflectedAs then return .dynamic
    match m.body with
    | .body => return .managed
    | _ =>
      if m.isAbstract then return .abstractMethod
      else if (← find r.types type).isInterface then return .interfaceMember
      else return .native

/-- The methods of types, in the order of the types; a type whose methods cannot be listed has none. -/
def methodsOf (r : Reflection) : List String → Act (List String)
  | [] => return []
  | key :: keys => do
    let type ← find r.types key
    log (.methods type (publicMembers + nonPublicMembers + instanceMembers + staticMembers + declaredOnly))
    return type.methods.getD [] ++ (← methodsOf r keys)

/-- Those of the types that were loaded. -/
def loaded (r : Reflection) (keys : List String) : List String := keys.filter fun key => (r.types.lookup key).isSome

/-- The method that a token of an assembly stands for. -/
def methodOfToken (token : Int) : Value := .call "ResolveMethod" [.int token]

/-- The type of an assembly with a name. It is a failure if there is none. -/
def typeOfName (name : String) : Value := .call "GetType" [.text name, .bool true]

/-! ### Tasks -/

/-- The type that an object of the runtime gives for itself. -/
private def typeKey? : Value → Option String
  | .managed key | .managedTask key _ _ | .valueTask key _ => some key
  | _ => none

private def isValueTaskObject (r : Reflection) (v : Value) : Bool :=
  (((typeKey? v).bind fun key => r.types.lookup key).map ReflectedType.isValueTask).getD false

def isAwaitable (r : Reflection) : Value → Bool
  | .managedTask .. | .promise _ | .failedPromise _ => true
  | v => r.isValueTaskObject v

/-- The type of the result of a task: the argument of the first typed task among the type and its bases. -/
def resultType? (r : Reflection) : Nat → String → Option ReflectedType
  | 0, _ => none
  | levels + 1, key => do
    let type ← r.types.lookup key
    if type.isGenericType && type.definition = some "System.Threading.Tasks.Task`1" then
      r.types.lookup (← type.arguments.head?)
    else r.resultType? levels (← type.base)

/-- Waits for a task of the runtime. The placeholder for no result is no value. -/
private def waitFor (r : Reflection) : Value → Act (Bool × Value)
  | .managedTask type result failure =>
    match failure, r.resultType? (r.types.length + 1) type with
    | some raised, _ => throw raised
    | none, some t =>
      if t.fullName = some "System.Threading.Tasks.VoidTaskResult" then return (false, .none)
      else return (true, result)
    | none, none => return (false, .none)
  | _ => Action.fail (missing "Wait")

def awaitResult (r : Reflection) : Value → Act (Bool × Value)
  | .promise v => return (true, v)
  | .failedPromise raised => throw raised
  | .valueTask type inner =>
    waitFor r (if r.isValueTaskObject (.valueTask type inner) then inner else .valueTask type inner)
  | .managedTask type result failure =>
    if r.isValueTaskObject (.managedTask type result failure) then Action.fail (missing "AsTask")
    else waitFor r (.managedTask type result failure)
  | .managed key => Action.fail (missing (if r.isValueTaskObject (.managed key) then "AsTask" else "Wait"))
  | _ => Action.fail (.error "TypeError" "not awaitable" false)

def host (r : Reflection) : Host String String (Array Access) where
  typeName key := do return (← find r.types key).displayName
  typeKind key := do return (← find r.types key).kind
  enumMembers key := do
    let type ← find r.types key
    log (.fields (publicMembers + staticMembers))
    return type.fields
  elementType key := do
    match (← find r.types key).element with
    | some element => return element
    | none => Action.fail (missing "element type")
  newArray element length := do
    return .call "Array.CreateInstance" [(← find r.types element).fullNameValue, .int length]
  createDefault key := do return .call "Activator.CreateInstance" [(← find r.types key).fullNameValue]
  convert text key := do return .call "ChangeType" [.text text, (← find r.types key).fullNameValue, invariant]
  constructors key := do return (← find r.types key).constructors
  parameters := parametersOf r
  construct key arguments := invokeOn r key [] arguments
  declaringType key := do
    match (← find r.methods key).declaringType with
    | some type => return type
    | none => Action.fail (missing "declaring type")
  describe := describe r
  methodKind := methodKindOf r
  invoke key receiver arguments := invokeOn r key [receiver] arguments
  isAwaitable v := return r.isAwaitable v
  awaitResult := awaitResult r
  text f := return f.text
  unwrap f := return f.inner?
  report f := return f.report
  redirectsConsole := true

end Reflection

end CilProbe
