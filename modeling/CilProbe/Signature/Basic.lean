/-!
# Signatures

The types that signatures are made of. References to types are left open: in a signature as it is stored they are
rows of the metadata, in one that is shown they are names.
-/

namespace CilProbe.Signature

/-- The types that have an element code of their own. -/
inductive Primitive where
  | void | boolean | char | int8 | uint8 | int16 | uint16 | int32 | uint32 | int64 | uint64 | single | double
  | string | typedReference | intPtr | uintPtr | object
  deriving DecidableEq, Repr

namespace Primitive

/-- The element codes. -/
def codes : List (Nat × Primitive) :=
  [(0x01, void), (0x02, boolean), (0x03, char), (0x04, int8), (0x05, uint8), (0x06, int16), (0x07, uint16),
   (0x08, int32), (0x09, uint32), (0x0A, int64), (0x0B, uint64), (0x0C, single), (0x0D, double), (0x0E, string),
   (0x16, typedReference), (0x18, intPtr), (0x19, uintPtr), (0x1C, object)]

def ofCode? (code : Nat) : Option Primitive := codes.lookup code

def name : Primitive → String
  | void => "System.Void"
  | boolean => "System.Boolean"
  | char => "System.Char"
  | int8 => "System.SByte"
  | uint8 => "System.Byte"
  | int16 => "System.Int16"
  | uint16 => "System.UInt16"
  | int32 => "System.Int32"
  | uint32 => "System.UInt32"
  | int64 => "System.Int64"
  | uint64 => "System.UInt64"
  | single => "System.Single"
  | double => "System.Double"
  | string => "System.String"
  | typedReference => "System.TypedReference"
  | intPtr => "System.IntPtr"
  | uintPtr => "System.UIntPtr"
  | object => "System.Object"

end Primitive

/-- A type in a signature; `ν` is what a reference to a type is. -/
inductive TypeSig (ν : Type) where
  | primitive (type : Primitive)
  | pointer (target : TypeSig ν)
  | byRef (target : TypeSig ν)
  | named (isValueType : Bool) (name : ν)
  /-- A type parameter of the declaring type. -/
  | typeVar (number : Nat)
  /-- A type parameter of the method. -/
  | methodVar (number : Nat)
  /-- An array of one dimension with bounds from zero. -/
  | vector (element : TypeSig ν)
  | array (element : TypeSig ν) (rank : Nat) (sizes lowerBounds : List Nat)
  | generic (isValueType : Bool) (name : ν) (arguments : List (TypeSig ν))
  /-- A pointer to a function with this calling convention and number of type parameters. -/
  | function (convention genericParameters : Nat) (result : TypeSig ν) (parameters : List (TypeSig ν))
  /-- A type with a custom modifier. -/
  | modified (isRequired : Bool) (modifier : ν) (type : TypeSig ν)
  | pinned (type : TypeSig ν)
  /-- The first of the variable arguments of a call. -/
  | sentinel (type : TypeSig ν)

/-- A method signature. -/
structure MethodSig (ν : Type) where
  /-- The calling convention with its flags. -/
  convention : Nat
  genericParameters : Nat
  result : TypeSig ν
  parameters : List (TypeSig ν)

namespace MethodSig

variable {ν : Type}

/-- The flag of signatures with type parameters. -/
def genericFlag : Nat := 0x10

/-- The flag of methods with a receiver. -/
def receiverFlag : Nat := 0x20

def isGeneric (convention : Nat) : Bool := convention &&& genericFlag ≠ 0

def hasThis (m : MethodSig ν) : Bool := m.convention &&& receiverFlag ≠ 0

end MethodSig

namespace TypeSig

mutual

/-- The name of a type. Modifiers, pinning and sentinels are not shown. -/
def render : TypeSig String → String
  | primitive type => type.name
  | pointer target => target.render ++ "*"
  | byRef target => target.render ++ "&"
  | named _ name => name
  | typeVar number => "!" ++ toString number
  | methodVar number => "!!" ++ toString number
  | vector element => element.render ++ "[]"
  | array element rank _ _ => element.render ++ "[" ++ String.ofList (List.replicate (rank - 1) ',') ++ "]"
  | generic _ name arguments => name ++ "<" ++ ",".intercalate (renderAll arguments) ++ ">"
  | function _ _ result parameters =>
    "method " ++ result.render ++ " *(" ++ ",".intercalate (renderAll parameters) ++ ")"
  | modified _ _ type | pinned type | sentinel type => type.render

def renderAll : List (TypeSig String) → List String
  | [] => []
  | t :: ts => t.render :: renderAll ts

end

end TypeSig

end CilProbe.Signature
