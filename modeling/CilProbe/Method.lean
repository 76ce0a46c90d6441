import CilProbe.TypeName

/-!
# Methods

What is known of a method: where it is declared, its parameters and result, and, if it is defined in the inspected
assembly, its flags and the address of its body. Methods are told apart by `Method.id`.
-/

namespace CilProbe

structure Method where
  declaringType : String
  name : String
  parameterTypes : List String := []
  returnType : String := TypeName.void
  isStatic : Bool := false
  /-- The method has type parameters of its own, and they are open. -/
  isGenericDefinition : Bool := false
  hasGenericArguments : Bool := false
  /-- The method or its type depends on open type parameters. -/
  containsGenericParameters : Bool := false
  /-- The name of the assembly that declares the method. -/
  assembly : String := ""
  token : Nat := 0
  /-- The address of the body; zero if there is none. -/
  rva : Nat := 0
  flags : Nat := 0
  parameterNames : List String := []
  deriving DecidableEq, Repr

namespace Method

/-- The bits of the flags. -/
def staticFlag : Nat := 0x10
def virtualFlag : Nat := 0x40
def abstractFlag : Nat := 0x400

/-- The full name with the types of the parameters. -/
def id (m : Method) : String := s!"{m.declaringType}::{m.name}(" ++ ",".intercalate m.parameterTypes ++ ")"

/-- The name with that of its type, without the namespace. -/
def displayName (m : Method) : String := TypeName.afterLastPoint m.declaringType ++ "." ++ m.name

def isConstructor (m : Method) : Bool := m.name = ".ctor" || m.name = ".cctor"

/-- The keyword of the access bits; the last of the eight values has none. -/
private def accessKeyword (flags : Nat) : Option String :=
  ["privatescope", "private", "private protected", "internal", "protected", "protected internal", "public"][flags % 8]?

private def modifiers (m : Method) : List String :=
  (if m.flags = 0 then [] else (accessKeyword m.flags).toList) ++
  (if m.isStatic then ["static"] else []) ++
  (if m.flags &&& abstractFlag ≠ 0 then ["abstract"] else if m.flags &&& virtualFlag ≠ 0 then ["virtual"] else [])

/-- The parameters with their names, as far as there are names. -/
private def parameterTexts : List String → List String → List String
  | [], _ => []
  | type :: types, [] => TypeName.short type :: parameterTexts types []
  | type :: types, name :: names =>
    (if name.isEmpty then TypeName.short type else TypeName.short type ++ " " ++ name) :: parameterTexts types names

/-- The declaration in one line; a constructor has the name of its type and no result. -/
def signature (m : Method) : String :=
  let heading := if m.isConstructor then [TypeName.short m.declaringType] else [TypeName.short m.returnType, m.name]
  let parameters := ", ".intercalate (parameterTexts m.parameterTypes m.parameterNames)
  " ".intercalate (m.modifiers ++ heading) ++ "(" ++ parameters ++ ")"

end Method

/-- A field with its type. -/
structure Field where
  declaringType : String
  name : String
  type : String := ""
  deriving DecidableEq, Repr

def Field.id (f : Field) : String := s!"{f.declaringType}::{f.name}"

end CilProbe
