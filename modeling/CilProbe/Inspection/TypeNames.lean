import CilProbe.Inspection.Memory

/-!
# Names of types, with a memory

Types are named as without one. A type specification counts as being named from when it is entered until it is left,
and is not entered again meanwhile. Each time a signature is entered, types may be nested as often as at first; how many
specifications may be entered one inside the other is therefore what keeps naming from going on forever.
-/

namespace CilProbe.Inspection

open Metadata (Table CodedIndex LookupError)
open Assembly (maxNesting typeTables)

variable {σ : Type} (m : Metadata)

private def nameIn (row : Metadata.Row) : String := m.string (row.column "TypeName")

private def qualifiedName (row : Metadata.Row) : String :=
  TypeName.qualified (m.string (row.column "TypeNamespace")) (nameIn m row)

/-- The name of a type definition, of which less than `levels` types around it are named. -/
def typeDefName : (levels rid : Nat) → Inspection σ String
  | 0, _ => throw .nestedTooDeep
  | levels + 1, rid => do
    let row ← row m .typeDef rid
    match (← enclosing m).lookup rid with
    | some outer => return (← typeDefName levels outer) ++ "+" ++ nameIn m row
    | none => return qualifiedName m row

/-- The name of a type reference; one in the scope of another is nested in it. -/
def typeRefName : (levels rid : Nat) → Inspection σ String
  | 0, _ => throw .nestedTooDeep
  | levels + 1, rid => do
    let row ← row m .typeRef rid
    let (scope, scopeRid) ← Metadata.decodeIndex .resolutionScope (row.column "ResolutionScope")
    if scope = .typeRef ∧ scopeRid ≠ 0 then return (← typeRefName levels scopeRid) ++ "+" ++ nameIn m row
    else return qualifiedName m row

/-- The name of a type, of which less than `levels` types around it are named, by entering at most `specs`
specifications one inside the other. -/
def typeNameWithin (specs : Nat) (table : Table) (levels rid : Nat) : Inspection σ String :=
  if levels = 0 then throw .nestedTooDeep
  else
    match table, specs with
    | .typeDef, _ => typeDefName m levels rid
    | .typeRef, _ => typeRefName m levels rid
    | .typeSpec, 0 => endless
    | .typeSpec, specs + 1 => do
      if (← get).pending.contains rid then throw (.selfReference rid)
      let row ← row m .typeSpec rid
      whileNaming rid do
        let resolve (table : Table) (inner : Nat) := typeNameWithin specs table (maxNesting + 1) inner
        let blob := m.blob (row.column "Signature")
        let (type, _) ← Signature.Reading.type resolve (.at blob 0)
        return type.render
    | table, _ => throw (.notTypeTable table.name)

/-- The name of a type that is found `depth` levels into nested types. -/
def typeNameAt (table : Table) (rid : Nat) (depth : Int) : Inspection σ String :=
  typeNameWithin m (m.rowCount .typeSpec + 2) table (maxNesting + 1 - depth).toNat rid

/-- The name of a type. -/
def typeName (table : Table) (rid : Nat) : Inspection σ String := typeNameAt m table rid 0

/-- The name of a type with the table given by name and any row number. -/
def typeNameIn (tableName : String) (rid depth : Int) : Inspection σ String :=
  match typeTables.find? (·.name == tableName), rid with
  | some table, .ofNat rid => typeNameAt m table rid depth
  | some table, rid => do
    if maxNesting < depth then throw .nestedTooDeep
    let _ ← rows m table
    throw (.noRow tableName rid)
  | none, _ => throw (if maxNesting < depth then .nestedTooDeep else .notTypeTable tableName)

/-- The assembly that declares a type, following less than `levels` references; empty if it is not known. -/
def typeAssemblyWithin : (levels : Nat) → Table → (rid : Nat) → Inspection σ String
  | 0, _, _ => return ""
  | levels + 1, table, rid =>
    match table with
    | .typeDef => name m
    | .typeRef => do
      let row ← row m .typeRef rid
      let (scope, scopeRid) ← Metadata.decodeIndex .resolutionScope (row.column "ResolutionScope")
      if scope = .assemblyRef ∧ scopeRid ≠ 0 then
        return m.string ((← Inspection.row m .assemblyRef scopeRid).column "Name")
      else if scope = .typeRef ∧ scopeRid ≠ 0 then typeAssemblyWithin levels .typeRef scopeRid
      else name m
    | .typeSpec => do
      let row ← row m .typeSpec rid
      match m.blob (row.column "Signature") with
      | 0x15 :: _ :: rest =>
        match Compressed.read? rest with
        | none => return ""
        | some (value, _) =>
          match CodedIndex.typeDefOrRef.decode? value with
          | none => throw .badGenericTag
          | some (table, inner) => typeAssemblyWithin levels table inner
      | _ => return ""
    | _ => return ""

/-- The assembly that declares a type that is found `depth` references into another. -/
def typeAssemblyAt (table : Table) (rid : Nat) (depth : Int) : Inspection σ String :=
  typeAssemblyWithin m (maxNesting + 1 - depth).toNat table rid

/-- The assembly that declares a type. -/
def typeAssembly (table : Table) (rid : Nat) : Inspection σ String := typeAssemblyAt m table rid 0

/-- The assembly that declares a type with the table given by name and any row number. -/
def typeAssemblyIn (tableName : String) (rid depth : Int) : Inspection σ String :=
  match typeTables.find? (·.name == tableName), rid with
  | some table, .ofNat rid => typeAssemblyAt m table rid depth
  | none, _ => return ""
  | some table, rid => do
    if maxNesting < depth then return ""
    else if table = .typeDef then name m
    else
      let _ ← rows m table
      throw (.noRow tableName rid)

end CilProbe.Inspection
