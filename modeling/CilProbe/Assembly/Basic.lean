import CilProbe.Metadata.Heap
import CilProbe.TypeName

/-!
# Assemblies

The metadata of an assembly together with what is derived from whole tables: which type owns which methods and fields,
which types are nested in which, and which rows have type parameters.

A type owns the members from the number in its row up to the one in the next row.
-/

namespace CilProbe

/-- Members from `first` up to, but without, `stop`. -/
structure OwnedRange where
  owner : Nat
  first : Nat
  stop : Nat
  deriving DecidableEq, Repr

def OwnedRange.contains (r : OwnedRange) (rid : Nat) : Bool := r.first ≤ rid && rid < r.stop

/-- Which owner each member has; where ranges overlap the last one counts. -/
abbrev Ownership := List OwnedRange

namespace Ownership

/-- The ranges of owners with these first members, given the number of members. The last range comes first. -/
def ofStarts (count : Nat) (starts : List (Nat × Nat)) : Ownership :=
  let stops := (starts.drop 1).map (·.2) ++ [count + 1]
  ((starts.zip stops).map fun ((owner, first), stop) => ⟨owner, first, min stop (count + 1)⟩).reverse

def owner? (o : Ownership) (rid : Nat) : Option Nat := (o.find? (·.contains rid)).map (·.owner)

/-- All members with their owners, given the number of members. -/
def toList (o : Ownership) (count : Nat) : List (Nat × Nat) :=
  (List.range (count + 1)).filterMap fun rid => (o.owner? rid).map fun owner => (rid, owner)

end Ownership

/-- Puts an entry into a list that is sorted by key; an entry with the same key is replaced. -/
def insertByKey (key value : Nat) : List (Nat × Nat) → List (Nat × Nat)
  | [] => [(key, value)]
  | (k, v) :: rest =>
    match compare key k with
    | .lt => (key, value) :: (k, v) :: rest
    | .eq => (key, value) :: rest
    | .gt => (k, v) :: insertByKey key value rest

structure Assembly where
  metadata : Metadata
  name : String
  methodOwners : Ownership
  fieldOwners : Ownership
  /-- The nested types with the types around them, by number. -/
  enclosing : List (Nat × Nat)
  /-- The types and methods that have type parameters. -/
  genericOwners : List (Metadata.Table × Nat)

namespace Assembly

open Metadata (Table CodedIndex)

/-- The name of the assembly, or of its module without the extension. -/
def nameOf (m : Metadata) : String :=
  match m.row .assembly 1, m.row .module 1 with
  | .ok row, _ => m.string (row.column "Name")
  | .error _, .ok row => TypeName.beforeLastPoint (m.string (row.column "Name"))
  | .error _, .error _ => ""

def ownership (m : Metadata) (column : String) (members : Table) : Ownership :=
  .ofStarts (m.rowCount members) ((m.rows .typeDef).map fun row => (row.rid, row.column column))

/-- The assembly with this metadata. -/
def ofMetadata (metadata : Metadata) : Assembly where
  metadata
  name := nameOf metadata
  methodOwners := ownership metadata "MethodList" .methodDef
  fieldOwners := ownership metadata "FieldList" .field
  enclosing := (metadata.rows .nestedClass).foldl
    (fun entries row => insertByKey (row.column "NestedClass") (row.column "EnclosingClass") entries) []
  genericOwners := (metadata.rows .genericParam).filterMap fun row =>
    CodedIndex.typeOrMethodDef.decode? (row.column "Owner")

/-- Whether a row has type parameters of its own. -/
def isGeneric (a : Assembly) (table : Table) (rid : Nat) : Bool := a.genericOwners.contains (table, rid)

/-- The rows with type parameters, each once, in the order of the names of their tables and then of their numbers. -/
def sortedGenericOwners (a : Assembly) : List (Table × Nat) :=
  let before (x y : Table × Nat) : Bool := x.1.name < y.1.name || x.1 == y.1 && x.2 ≤ y.2
  (a.genericOwners.eraseDups).mergeSort before

/-- The names of the referenced assemblies. -/
def references (a : Assembly) : List String :=
  (a.metadata.rows .assemblyRef).map fun row => a.metadata.string (row.column "Name")

/-- The names of the modules without managed code that are referenced. -/
def unmanagedModules (a : Assembly) : List String :=
  (a.metadata.rows .moduleRef).map fun row => a.metadata.string (row.column "Name")

end Assembly

end CilProbe
