import CilProbe.Compressed
import CilProbe.Metadata.Table
import CilProbe.Position
import CilProbe.Signature.Basic
import CilProbe.Text.Hex

/-!
# Reading signatures

A signature is read from its first byte to its last; each reference to a type is resolved where it stands, so that of
two flaws the first one is reported. Every type takes at least one byte, and so nesting is no deeper than the signature
is long.

The names of types may come from a computation with effects; `Reading` has the readers for this, which go through a
signature in the same way.
-/

namespace CilProbe.Signature

/-- What is wrong with a signature. -/
inductive Flaw where
  /-- It ends at or before this offset. -/
  | truncated (offset : Int)
  /-- A reference to a type with a tag that stands for no table. -/
  | badTag (tag : Nat)
  | unsupported (element : Nat)
  | emptyMethod
  | notField
  | notInstantiation
  deriving DecidableEq, Repr

def Flaw.message : Flaw → String
  | truncated offset => s!"Truncated signature at offset {offset}"
  | badTag tag => s!"Invalid TypeDefOrRef tag {tag}"
  | unsupported element => "Unsupported element type 0x" ++ Text.hex 2 element
  | emptyMethod => "Empty method signature"
  | notField => "Not a field signature"
  | notInstantiation => "Not a method instantiation signature"

/-- Why a signature cannot be read; `ε` is why a type has no name. -/
inductive ReadError (ε : Type) where
  | flaw (flaw : Flaw)
  | unnamed (reason : ε)

/-- A place in a signature: the offset and the bytes from there on. -/
structure Cursor where
  offset : Int
  rest : Bytes

/-- The place at an offset of a signature. -/
def Cursor.at (blob : Bytes) (offset : Nat) : Cursor := ⟨offset, blob.drop offset⟩

/-- The same for an offset that may be below zero and then counts from the end; none if it lies before the signature. -/
def Cursor.at? (blob : Bytes) (offset : Int) : Option Cursor := (Position.from? blob offset).map (⟨offset, ·⟩)

/-- Behind the next `n` bytes, which need not be there. -/
def Cursor.skip (c : Cursor) (n : Nat) : Cursor := ⟨c.offset + n, c.rest.drop n⟩

/-- Computations that may meet a flaw. -/
class Flawed (m : Type → Type) where
  flawed {α : Type} : Flaw → m α

export Flawed (flawed)

/-- A reading step: the result and the place behind it. -/
abbrev StepIn (m : Type → Type) (α : Type) := Cursor → m (α × Cursor)

section

variable {m : Type → Type} [Monad m] [Flawed m] {ν α : Type}

/-- A compressed number. -/
def readNumber : StepIn m Nat := fun c =>
  match Compressed.read? c.rest with
  | some (n, size) => pure (n, c.skip size)
  | none => flawed (.truncated c.offset)

/-- So many results of a step, one after the other. -/
def readTimes (step : StepIn m α) : Nat → StepIn m (List α)
  | 0, c => pure ([], c)
  | count + 1, c => do
    let (x, c) ← step c
    let (xs, c) ← readTimes step count c
    return (x :: xs, c)

/-- A count and so many results of a step. -/
def readCounted (step : StepIn m α) : StepIn m (List α) := fun c => do
  let (count, c) ← readNumber c
  readTimes step count c

/-- A method signature, given how to read a type. -/
def readMethodWith (readType : StepIn m (TypeSig ν)) : StepIn m (MethodSig ν) := fun c =>
  match c.rest with
  | [] => flawed .emptyMethod
  | first :: _ => do
    let convention := first.toNat
    let c := c.skip 1
    let (genericParameters, c) ← if MethodSig.isGeneric convention then readNumber c else pure (0, c)
    let (count, c) ← readNumber c
    let (result, c) ← readType c
    let (parameters, c) ← readTimes readType count c
    return (⟨convention, genericParameters, result, parameters⟩, c)

namespace Reading

/-- A reference to a type, resolved. -/
def reference (resolve : Metadata.Table → Nat → m ν) : StepIn m ν := fun c => do
  let (value, c) ← readNumber c
  match Metadata.CodedIndex.typeDefOrRef.decode? value with
  | none => flawed (.badTag (Metadata.CodedIndex.typeDefOrRef.tag value))
  | some (table, rid) => return (← resolve table rid, c)

/-- A type that is nested less than `depth` deep. -/
def typeWithin (resolve : Metadata.Table → Nat → m ν) (depth : Nat) : StepIn m (TypeSig ν) := fun c =>
  match depth, c.rest with
  | 0, _ => flawed (.truncated c.offset)
  | _, [] => flawed (.truncated c.offset)
  | depth + 1, first :: _ => do
    let readType := typeWithin resolve depth
    let c := c.skip 1
    match Primitive.ofCode? first.toNat with
    | some type => return (.primitive type, c)
    | none =>
      match first.toNat with
      | 0x1F | 0x20 =>
        let (modifier, c) ← reference resolve c
        let (type, c) ← readType c
        return (.modified (first == 0x1F) modifier type, c)
      | 0x45 =>
        let (type, c) ← readType c
        return (.pinned type, c)
      | 0x41 =>
        let (type, c) ← readType c
        return (.sentinel type, c)
      | 0x0F =>
        let (type, c) ← readType c
        return (.pointer type, c)
      | 0x10 =>
        let (type, c) ← readType c
        return (.byRef type, c)
      | 0x11 | 0x12 =>
        let (name, c) ← reference resolve c
        return (.named (first == 0x11) name, c)
      | 0x13 =>
        let (number, c) ← readNumber c
        return (.typeVar number, c)
      | 0x1E =>
        let (number, c) ← readNumber c
        return (.methodVar number, c)
      | 0x1D =>
        let (element, c) ← readType c
        return (.vector element, c)
      | 0x14 =>
        let (element, c) ← readType c
        let (rank, c) ← readNumber c
        let (sizes, c) ← readCounted readNumber c
        let (lowerBounds, c) ← readCounted readNumber c
        return (.array element rank sizes lowerBounds, c)
      | 0x15 =>
        -- The byte that tells classes from value types is not checked.
        let isValueType := c.rest.head? == some 0x11
        let (name, c) ← reference resolve (c.skip 1)
        let (arguments, c) ← readCounted readType c
        return (.generic isValueType name arguments, c)
      | 0x1B =>
        let (m, c) ← readMethodWith readType c
        return (.function m.convention m.genericParameters m.result m.parameters, c)
      | element => flawed (.unsupported element)

/-- The type at a place. -/
def type (resolve : Metadata.Table → Nat → m ν) : StepIn m (TypeSig ν) := fun c =>
  typeWithin resolve (c.rest.length + 1) c

/-- The method signature at a place. -/
def method (resolve : Metadata.Table → Nat → m ν) : StepIn m (MethodSig ν) := fun c =>
  readMethodWith (typeWithin resolve (c.rest.length + 1)) c

/-- The type of a field. -/
def field (resolve : Metadata.Table → Nat → m ν) (blob : Bytes) : m (TypeSig ν) :=
  match blob with
  | 0x06 :: _ => do
    let (type, _) ← type resolve (.at blob 1)
    return type
  | _ => flawed .notField

/-- The type arguments of a method. -/
def instantiation (resolve : Metadata.Table → Nat → m ν) (blob : Bytes) : m (List (TypeSig ν)) :=
  match blob with
  | 0x0A :: _ => do
    let (types, _) ← readCounted (typeWithin resolve (blob.length + 1)) (.at blob 1)
    return types
  | _ => flawed .notInstantiation

end Reading

end

/-! ### Reading without effects -/

section

variable {ε ν α : Type}

def fail (flaw : Flaw) : Except (ReadError ε) α := .error (.flaw flaw)

instance : Flawed (Except (ReadError ε)) := ⟨fail⟩

abbrev Step (ε α : Type) := StepIn (Except (ReadError ε)) α

/-- The name of a type; it is a reason of its own if there is none. -/
def orUnnamed (resolve : Metadata.Table → Nat → Except ε ν) (table : Metadata.Table) (rid : Nat) :
    Except (ReadError ε) ν :=
  (resolve table rid).mapError .unnamed

def readReference (resolve : Metadata.Table → Nat → Except ε ν) : Step ε ν := Reading.reference (orUnnamed resolve)

/-- A type that is nested less than `depth` deep. -/
def readTypeWithin (resolve : Metadata.Table → Nat → Except ε ν) (depth : Nat) : Step ε (TypeSig ν) :=
  Reading.typeWithin (orUnnamed resolve) depth

/-- The type at a place. -/
def readType (resolve : Metadata.Table → Nat → Except ε ν) : Step ε (TypeSig ν) := fun c =>
  readTypeWithin resolve (c.rest.length + 1) c

/-- The method signature at a place. -/
def readMethod (resolve : Metadata.Table → Nat → Except ε ν) : Step ε (MethodSig ν) := fun c =>
  readMethodWith (readTypeWithin resolve (c.rest.length + 1)) c

/-- The type of a field. -/
def readField (resolve : Metadata.Table → Nat → Except ε ν) (blob : Bytes) : Except (ReadError ε) (TypeSig ν) :=
  match blob with
  | 0x06 :: _ => (readType resolve (.at blob 1)).map (·.1)
  | _ => fail .notField

/-- The type arguments of a method. -/
def readInstantiation (resolve : Metadata.Table → Nat → Except ε ν) (blob : Bytes) :
    Except (ReadError ε) (List (TypeSig ν)) :=
  match blob with
  | 0x0A :: _ => (readCounted (readTypeWithin resolve (blob.length + 1)) (.at blob 1)).map (·.1)
  | _ => fail .notInstantiation

/-- Whether a signature is marked as that of a field. -/
def isField : Bytes → Bool
  | first :: _ => first.toNat % 16 == 6
  | [] => false

end

end CilProbe.Signature
