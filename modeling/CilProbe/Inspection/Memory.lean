import CilProbe.Assembly.TypeNames
import CilProbe.Method

/-!
# Inspecting with a memory

Tables, what is derived from whole tables and the definitions of methods are kept when they have been read, so that
later queries find them. Beside these it is remembered which type specifications are being named, and the source of
method bodies may have a state of its own. What is remembered lasts, whether a query has an answer or fails.

A query might also go on forever (`Inspection.endless`).
-/

namespace CilProbe

open Metadata (Table Row LookupError)

/-- What lasts from one query of an assembly to the next. -/
structure Memory (σ : Type) where
  tables : List (Table × List Row) := []
  methodOwners? : Option Ownership := none
  fieldOwners? : Option Ownership := none
  enclosing? : Option (List (Nat × Nat)) := none
  genericOwners? : Option (List (Table × Nat)) := none
  /-- The method definitions by number. -/
  methods : List (Nat × Method) := []
  /-- The type specifications that are being named. -/
  pending : List Nat := []
  /-- The state of the source of method bodies. -/
  source : σ
  deriving DecidableEq, Repr

/-- What is done with a memory; none if it does not end. -/
abbrev Inspection (σ α : Type) := ExceptT LookupError (StateT (Memory σ) Option) α

namespace Inspection

variable {σ α : Type}

instance : Signature.Flawed (Inspection σ) := ⟨fun flaw => throw (.signature flaw)⟩

def endless : Inspection σ α := fun _ => none

/-- What is in the memory, or else what is computed and then kept there. Failures are not kept. -/
def remembered (find : Memory σ → Option α) (keep : α → Memory σ → Memory σ) (compute : Inspection σ α) :
    Inspection σ α := do
  match find (← get) with
  | some x => return x
  | none =>
    let x ← compute
    modify (keep x)
    return x

/-- The result, or what stands in for one that is missing or invalid. -/
def tolerated (fallback : α) (act : Inspection σ α) : Inspection σ α := fun memory =>
  (act memory).map fun (ended, memory) => (LookupError.tolerate fallback ended, memory)

/-- The result, if there is one. -/
def attempt (act : Inspection σ α) : Inspection σ (Option α) := fun memory =>
  (act memory).map fun (ended, memory) => (.ok ended.toOption, memory)

/-- Enters a type specification, and leaves it however naming it ends. -/
def whileNaming (rid : Nat) (act : Inspection σ α) : Inspection σ α := fun memory =>
  (act { memory with pending := rid :: memory.pending }).map fun (ended, memory) =>
    (ended, { memory with pending := memory.pending.filter (· != rid) })

/-- How an inspection ends, and the memory after it; none if it does not end. -/
def ask (act : Inspection σ α) : StateM (Memory σ) (Option (Except LookupError α)) := fun memory =>
  match act memory with
  | some (ended, memory) => (some ended, memory)
  | none => (none, memory)

/-! ### Tables -/

variable (m : Metadata)

/-- The rows of a table. -/
def rows (table : Table) : Inspection σ (List Row) :=
  remembered (·.tables.lookup table) (fun rows memory => { memory with tables := (table, rows) :: memory.tables }) do
    match m.rows? table with
    | some rows => return rows
    | none => throw (.rowOutside table.name (m.rowCount table))

/-- The row with a number in a table. -/
def row (table : Table) (rid : Int) : Inspection σ Row := do
  let rows ← rows m table
  if h : 1 ≤ rid ∧ rid ≤ rows.length then return rows.get ⟨(rid - 1).toNat, by omega⟩
  else throw (.noRow table.name rid)

/-- The name of the assembly, or of its module without the extension. -/
def name : Inspection σ String := do
  if 0 < m.rowCount .assembly then return m.string ((← row m .assembly 1).column "Name")
  else if 0 < m.rowCount .module then
    return TypeName.beforeLastPoint (m.string ((← row m .module 1).column "Name"))
  else return ""

/-! ### What is derived from whole tables -/

private def ownership (column : String) (members : Table) : Inspection σ Ownership := do
  let types ← rows m .typeDef
  return .ofStarts (m.rowCount members) (types.map fun row => (row.rid, row.column column))

/-- The owners of methods. -/
def methodOwners : Inspection σ Ownership :=
  remembered (·.methodOwners?) (fun owners memory => { memory with methodOwners? := some owners })
    (ownership m "MethodList" .methodDef)

/-- The owners of fields. -/
def fieldOwners : Inspection σ Ownership :=
  remembered (·.fieldOwners?) (fun owners memory => { memory with fieldOwners? := some owners })
    (ownership m "FieldList" .field)

/-- The nested types with the types around them. -/
def enclosing : Inspection σ (List (Nat × Nat)) :=
  remembered (·.enclosing?) (fun entries memory => { memory with enclosing? := some entries }) do
    return (← rows m .nestedClass).foldl
      (fun entries row => insertByKey (row.column "NestedClass") (row.column "EnclosingClass") entries) []

/-- Adds the owners of type parameters to those that are remembered, row by row. -/
def addGenericOwners : List Row → Inspection σ Unit
  | [] => return
  | row :: rest => do
    let owner ← Metadata.decodeIndex .typeOrMethodDef (row.column "Owner")
    modify fun memory => { memory with genericOwners? := memory.genericOwners?.map (· ++ [owner]) }
    addGenericOwners rest

/-- The types and methods that have type parameters. Unlike the other parts of the memory they are there before they are
complete. -/
def genericOwners : Inspection σ (List (Table × Nat)) := do
  match (← get).genericOwners? with
  | some owners => return owners
  | none =>
    modify fun memory => { memory with genericOwners? := some [] }
    addGenericOwners (← rows m .genericParam)
    return (← get).genericOwners?.getD []

end Inspection

end CilProbe
