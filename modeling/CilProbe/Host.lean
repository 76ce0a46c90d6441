import CilProbe.Method
import CilProbe.Session
import CilProbe.Value

/-!
# Hosts

What the synthesis of arguments and the invocation of methods need of a runtime: reflection on types and methods, the
conversion of text, the calls themselves, and what to make of their results and failures.
-/

namespace CilProbe

inductive TypeKind where
  | string
  | enum
  | array
  | value
  | plainClass
  | interface
  | abstractClass
  deriving DecidableEq, Repr

namespace TypeKind

/-- Whether parameters of these types get a default instead of an instance. -/
def hasDefault : TypeKind → Bool
  | string | value | enum | array => true
  | _ => false

def all : List TypeKind := [string, enum, array, value, plainClass, interface, abstractClass]

def name : TypeKind → String
  | string => "String"
  | enum => "Enum"
  | array => "Array"
  | value => "Value"
  | plainClass => "Class"
  | interface => "Interface"
  | abstractClass => "Abstract"

def ofName? (name : String) : Option TypeKind := all.find? fun kind => kind.name = name

end TypeKind

inductive MethodKind where
  | managed
  | abstractMethod
  | interfaceMember
  | dynamic
  | native
  deriving DecidableEq, Repr

namespace MethodKind

def all : List MethodKind := [managed, abstractMethod, interfaceMember, dynamic, native]

def name : MethodKind → String
  | managed => "Managed"
  | abstractMethod => "Abstract"
  | interfaceMember => "InterfaceMember"
  | dynamic => "Dynamic"
  | native => "Native"

def ofName? (name : String) : Option MethodKind := all.find? fun kind => kind.name = name

end MethodKind

structure Parameter (τ : Type) where
  name : String
  type : τ
  typeName : String
  /-- The place of its input among the inputs; negative places count from the end. -/
  position : Int
  isOptional : Bool
  /-- The declared default. -/
  declared : Option Value

/-- What a failure of invoked code tells of itself. -/
structure FaultReport where
  typeName : String
  message : String
  /-- The stack trace; nothing if it is only one of this process. -/
  trace : Option String
  deriving DecidableEq, Repr

/-- What is known of a failure without a runtime: exceptions of the runtime carry their own description. -/
def Fault.report : Fault → FaultReport
  | managed typeName message trace _ => ⟨typeName, message, some trace⟩
  | f => ⟨f.typeName, f.text, none⟩

/-- A runtime whose types are known as `τ` and whose methods and constructors are known as `μ`. -/
structure Host (τ μ σ : Type) where
  typeName : τ → Action σ String
  typeKind : τ → Action σ TypeKind
  /-- The members of an enumeration in the order of their declaration. -/
  enumMembers : τ → Action σ (List (String × Value))
  elementType : τ → Action σ τ
  newArray : τ → Int → Action σ Value
  /-- The value of a value type that no constructor made; not every type has one. -/
  createDefault : τ → Action σ Value
  /-- Converts text to a type that has no conversion of its own here. -/
  convert : String → τ → Action σ Value
  /-- The public constructors of a type. -/
  constructors : τ → Action σ (List μ)
  parameters : μ → Action σ (List (Parameter τ))
  construct : μ → List Value → Action σ Value
  declaringType : μ → Action σ τ
  describe : μ → Action σ Method
  methodKind : μ → Action σ MethodKind
  /-- Calls a method on a receiver. A failure of the method may come in wrappers. -/
  invoke : μ → Value → List Value → Action σ Value
  isAwaitable : Value → Action σ Bool
  /-- Waits for a result, and tells whether it counts as a value. -/
  awaitResult : Value → Action σ (Bool × Value)
  /-- The text of a failure. To take it runs code of the failure, which may fail in turn. -/
  text : Fault → Action σ String
  /-- What a wrapper holds; nothing if the failure is no wrapper. -/
  unwrap : Fault → Action σ (Option Fault)
  report : Fault → Action σ FaultReport
  /-- Whether the console gets streams of its own while output is captured; otherwise it keeps text for the capture. -/
  redirectsConsole : Bool

end CilProbe
