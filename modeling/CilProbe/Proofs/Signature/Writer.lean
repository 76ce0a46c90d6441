import CilProbe.Compressed
import CilProbe.Metadata.Table
import CilProbe.Signature.Basic

/-!
# Writing signatures

How types and method signatures are written.  What a signature refers to are rows of the metadata (`TypeRow`); where the
rows have names, these take the place of the rows (`TypeSig.map`).
-/

namespace CilProbe.Signature

/-! ### Parts -/

/-- A row that names a type. -/
structure TypeRow where
  table : Metadata.Table
  rid : Nat
  deriving DecidableEq, Repr

open Metadata.CodedIndex in
def TypeRow.toBytes (row : TypeRow) : Bytes :=
  Compressed.encode (typeDefOrRef.encode (typeDefOrRef.tables.idxOf row.table) row.rid)

/-- The row is one of a type, and its number leaves room for the tag. -/
def TypeRow.Fits (row : TypeRow) : Prop := row.table ∈ Metadata.CodedIndex.typeDefOrRef.tables ∧ row.rid < 2 ^ 27

def Primitive.code : Primitive → UInt8
  | void => 0x01
  | boolean => 0x02
  | char => 0x03
  | int8 => 0x04
  | uint8 => 0x05
  | int16 => 0x06
  | uint16 => 0x07
  | int32 => 0x08
  | uint32 => 0x09
  | int64 => 0x0A
  | uint64 => 0x0B
  | single => 0x0C
  | double => 0x0D
  | string => 0x0E
  | typedReference => 0x16
  | intPtr => 0x18
  | uintPtr => 0x19
  | object => 0x1C

/-- The code that tells value types from classes. -/
def kindCode (isValueType : Bool) : UInt8 := if isValueType then 0x11 else 0x12

/-- A count and so many numbers. -/
def numbersToBytes (numbers : List Nat) : Bytes := Compressed.encode numbers.length ++ numbers.flatMap Compressed.encode

def NumbersFit (numbers : List Nat) : Prop := numbers.length < 2 ^ 29 ∧ ∀ n ∈ numbers, n < 2 ^ 29

/-- A calling convention, and the number of type parameters if the convention announces it. -/
def conventionToBytes (convention genericParameters : Nat) : Bytes :=
  UInt8.ofNat convention :: if MethodSig.isGeneric convention then Compressed.encode genericParameters else []

def ConventionFits (convention genericParameters : Nat) : Prop :=
  convention < 256 ∧ if MethodSig.isGeneric convention then genericParameters < 2 ^ 29 else genericParameters = 0

/-! ### Types -/

namespace TypeSig

variable {ν ν' : Type}

mutual

def toBytes : TypeSig TypeRow → Bytes
  | primitive type => [type.code]
  | pointer target => 0x0F :: target.toBytes
  | byRef target => 0x10 :: target.toBytes
  | named isValueType row => kindCode isValueType :: row.toBytes
  | typeVar number => 0x13 :: Compressed.encode number
  | methodVar number => 0x1E :: Compressed.encode number
  | vector element => 0x1D :: element.toBytes
  | array element rank sizes lowerBounds =>
    0x14 :: (element.toBytes ++ (Compressed.encode rank ++ (numbersToBytes sizes ++ numbersToBytes lowerBounds)))
  | generic isValueType row arguments =>
    0x15 :: kindCode isValueType :: (row.toBytes ++ (Compressed.encode arguments.length ++ allToBytes arguments))
  | function convention genericParameters result parameters =>
    0x1B :: (conventionToBytes convention genericParameters ++
      (Compressed.encode parameters.length ++ (result.toBytes ++ allToBytes parameters)))
  | modified isRequired row type => (if isRequired then 0x1F else 0x20) :: (row.toBytes ++ type.toBytes)
  | pinned type => 0x45 :: type.toBytes
  | sentinel type => 0x41 :: type.toBytes

def allToBytes : List (TypeSig TypeRow) → Bytes
  | [] => []
  | t :: ts => t.toBytes ++ allToBytes ts

end

mutual

/-- All rows, numbers and counts are in the range in which they can be written. -/
def Fits : TypeSig TypeRow → Prop
  | primitive _ => True
  | pointer target => target.Fits
  | byRef target => target.Fits
  | named _ row => row.Fits
  | typeVar number => number < 2 ^ 29
  | methodVar number => number < 2 ^ 29
  | vector element => element.Fits
  | array element rank sizes lowerBounds => element.Fits ∧ rank < 2 ^ 29 ∧ NumbersFit sizes ∧ NumbersFit lowerBounds
  | generic _ row arguments => row.Fits ∧ arguments.length < 2 ^ 29 ∧ AllFit arguments
  | function convention genericParameters result parameters =>
    ConventionFits convention genericParameters ∧ parameters.length < 2 ^ 29 ∧ result.Fits ∧ AllFit parameters
  | modified _ row type => row.Fits ∧ type.Fits
  | pinned type => type.Fits
  | sentinel type => type.Fits

def AllFit : List (TypeSig TypeRow) → Prop
  | [] => True
  | t :: ts => t.Fits ∧ AllFit ts

end

mutual

/-- The type with something else in place of each reference. -/
def map (f : ν → ν') : TypeSig ν → TypeSig ν'
  | primitive type => primitive type
  | pointer target => pointer (target.map f)
  | byRef target => byRef (target.map f)
  | named isValueType name => named isValueType (f name)
  | typeVar number => typeVar number
  | methodVar number => methodVar number
  | vector element => vector (element.map f)
  | array element rank sizes lowerBounds => array (element.map f) rank sizes lowerBounds
  | generic isValueType name arguments => generic isValueType (f name) (mapAll f arguments)
  | function convention genericParameters result parameters =>
    function convention genericParameters (result.map f) (mapAll f parameters)
  | modified isRequired modifier type => modified isRequired (f modifier) (type.map f)
  | pinned type => pinned (type.map f)
  | sentinel type => sentinel (type.map f)

def mapAll (f : ν → ν') : List (TypeSig ν) → List (TypeSig ν')
  | [] => []
  | t :: ts => t.map f :: mapAll f ts

end

mutual

/-- What a type refers to, the modifiers included. -/
def references : TypeSig ν → List ν
  | primitive _ | typeVar _ | methodVar _ => []
  | pointer type | byRef type | vector type | array type _ _ _ | pinned type | sentinel type => type.references
  | named _ name => [name]
  | generic _ name arguments => name :: allReferences arguments
  | function _ _ result parameters => result.references ++ allReferences parameters
  | modified _ modifier type => modifier :: type.references

def allReferences : List (TypeSig ν) → List ν
  | [] => []
  | t :: ts => t.references ++ allReferences ts

end

/-- The type arguments of a method. -/
def instantiationToBytes (arguments : List (TypeSig TypeRow)) : Bytes :=
  0x0A :: (Compressed.encode arguments.length ++ allToBytes arguments)

theorem allToBytes_eq (ts : List (TypeSig TypeRow)) : allToBytes ts = ts.flatMap toBytes := by
  induction ts with
  | nil => rfl
  | cons t ts ih => rw [allToBytes, ih, List.flatMap_cons]

theorem allFit_iff {ts : List (TypeSig TypeRow)} : AllFit ts ↔ ∀ t ∈ ts, t.Fits := by
  induction ts with
  | nil => simp [AllFit]
  | cons t ts ih => simp [AllFit, ih]

theorem mapAll_eq (f : ν → ν') (ts : List (TypeSig ν)) : mapAll f ts = ts.map (map f) := by
  induction ts with
  | nil => rfl
  | cons t ts ih => rw [mapAll, ih, List.map_cons]

theorem mem_allReferences {x : ν} {ts : List (TypeSig ν)} : x ∈ allReferences ts ↔ ∃ t ∈ ts, x ∈ t.references := by
  induction ts with
  | nil => simp [allReferences]
  | cons t ts ih => simp [allReferences, ih]

theorem renderAll_eq (ts : List (TypeSig String)) : renderAll ts = ts.map render := by
  induction ts with
  | nil => rfl
  | cons t ts ih => rw [renderAll, ih, List.map_cons]

/-- Induction over types, with the hypothesis for each member of a list of types. -/
@[elab_as_elim]
theorem inductionOn {P : TypeSig ν → Prop} (t : TypeSig ν) (primitive : ∀ type, P (primitive type))
    (pointer : ∀ target, P target → P (pointer target)) (byRef : ∀ target, P target → P (byRef target))
    (named : ∀ isValueType name, P (named isValueType name)) (typeVar : ∀ number, P (typeVar number))
    (methodVar : ∀ number, P (methodVar number)) (vector : ∀ element, P element → P (vector element))
    (array : ∀ element rank sizes lowerBounds, P element → P (array element rank sizes lowerBounds))
    (generic : ∀ isValueType name arguments, (∀ t ∈ arguments, P t) → P (generic isValueType name arguments))
    (function : ∀ convention genericParameters result parameters, P result → (∀ t ∈ parameters, P t) →
      P (function convention genericParameters result parameters))
    (modified : ∀ isRequired modifier type, P type → P (modified isRequired modifier type))
    (pinned : ∀ type, P type → P (pinned type)) (sentinel : ∀ type, P type → P (sentinel type)) : P t :=
  @TypeSig.rec ν P (fun ts => ∀ t ∈ ts, P t) primitive pointer byRef named typeVar methodVar vector array generic
    function modified pinned sentinel (by simp) (fun _ _ h hs => by simpa using ⟨h, hs⟩) t

end TypeSig

/-! ### Method signatures -/

namespace MethodSig

variable {ν ν' : Type}

def toBytes (m : MethodSig TypeRow) : Bytes :=
  conventionToBytes m.convention m.genericParameters ++
    (Compressed.encode m.parameters.length ++ (m.result.toBytes ++ TypeSig.allToBytes m.parameters))

def Fits (m : MethodSig TypeRow) : Prop :=
  ConventionFits m.convention m.genericParameters ∧ m.parameters.length < 2 ^ 29 ∧ m.result.Fits ∧
    TypeSig.AllFit m.parameters

def map (f : ν → ν') (m : MethodSig ν) : MethodSig ν' :=
  ⟨m.convention, m.genericParameters, m.result.map f, TypeSig.mapAll f m.parameters⟩

/-- What the types of a method signature refer to. -/
def references (m : MethodSig ν) : List ν := m.result.references ++ TypeSig.allReferences m.parameters

end MethodSig

end CilProbe.Signature
