import CilProbe.Assembly.Basic

/-!
# Names of types in an assembly

A nested type is named after the type around it, a type specification after its signature. Metadata may nest types in a
circle or make a specification part of itself; naming ends all the same, because at most `maxNesting` types are followed
and no specification is entered again while it is being named.
-/

namespace CilProbe.Assembly

open Metadata (Table CodedIndex LookupError)

/-- How often a type may be nested in another one. -/
def maxNesting : Nat := 16

def rowName (a : Assembly) (row : Metadata.Row) : String := a.metadata.string (row.column "TypeName")

def rowQualifiedName (a : Assembly) (row : Metadata.Row) : String :=
  TypeName.qualified (a.metadata.string (row.column "TypeNamespace")) (a.rowName row)

/-- The name of a type definition, of which less than `levels` types around it are named. -/
def typeDefName (a : Assembly) : (levels rid : Nat) → Except LookupError String
  | 0, _ => throw .nestedTooDeep
  | levels + 1, rid => do
    let row ← a.metadata.row .typeDef rid
    match a.enclosing.lookup rid with
    | some outer => return (← typeDefName a levels outer) ++ "+" ++ a.rowName row
    | none => return a.rowQualifiedName row

/-- The name of a type reference; one in the scope of another is nested in it. -/
def typeRefName (a : Assembly) : (levels rid : Nat) → Except LookupError String
  | 0, _ => throw .nestedTooDeep
  | levels + 1, rid => do
    let row ← a.metadata.row .typeRef rid
    let (scope, scopeRid) ← Metadata.decodeIndex .resolutionScope (row.column "ResolutionScope")
    if scope = .typeRef ∧ scopeRid ≠ 0 then return (← typeRefName a levels scopeRid) ++ "+" ++ a.rowName row
    else return a.rowQualifiedName row

/-- An error of a signature as one of a look-up. -/
def signatureError : Signature.ReadError LookupError → LookupError
  | .flaw flaw => .signature flaw
  | .unnamed e => e

/-- What is left of a signature that has been read, or why it was not. -/
def signatureResult {α : Type} : Except (Signature.ReadError LookupError) α → Except LookupError α :=
  Except.mapError signatureError

/-- The name of a type, of which less than `levels` types around it are named, while the specifications in `pending`
are being named. Less than `specs` of them are left to be entered. -/
def typeNameWithin (a : Assembly) (specs : Nat) (pending : List Nat) (table : Table) (levels rid : Nat) :
    Except LookupError String :=
  if levels = 0 then throw .nestedTooDeep
  else
    match table, specs with
    | .typeDef, _ => a.typeDefName levels rid
    | .typeRef, _ => a.typeRefName levels rid
    | .typeSpec, 0 => throw (.selfReference rid)
    | .typeSpec, specs + 1 => do
      if pending.contains rid then throw (.selfReference rid)
      let row ← a.metadata.row .typeSpec rid
      let resolve (table : Table) (inner : Nat) := typeNameWithin a specs (rid :: pending) table (maxNesting + 1) inner
      let blob := a.metadata.blob (row.column "Signature")
      let (type, _) ← signatureResult (Signature.readType resolve (.at blob 0))
      return type.render
    | table, _ => throw (.notTypeTable table.name)

/-- The name of a type that is found `depth` levels into nested types. -/
def typeNameAt (a : Assembly) (table : Table) (rid : Nat) (depth : Int) : Except LookupError String :=
  a.typeNameWithin (a.metadata.rowCount .typeSpec + 2) [] table (maxNesting + 1 - depth).toNat rid

/-- The name of a type. -/
def typeName (a : Assembly) (table : Table) (rid : Nat) : Except LookupError String := a.typeNameAt table rid 0

/-- The tables of types. -/
def typeTables : List Table := [.typeDef, .typeRef, .typeSpec]

/-- The name of a type with the table given by name and any row number. -/
def typeNameIn (a : Assembly) (tableName : String) (rid depth : Int) : Except LookupError String :=
  match typeTables.find? (·.name == tableName), rid with
  | some table, .ofNat rid => a.typeNameAt table rid depth
  | table?, rid =>
    throw (if maxNesting < depth then .nestedTooDeep
      else if table?.isSome then .noRow tableName rid
      else .notTypeTable tableName)

/-- The assembly that declares a type, following less than `levels` references; empty if it is not known. -/
def typeAssemblyWithin (a : Assembly) : (levels : Nat) → Table → (rid : Nat) → Except LookupError String
  | 0, _, _ => return ""
  | levels + 1, table, rid =>
    match table with
    | .typeDef => return a.name
    | .typeRef => do
      let row ← a.metadata.row .typeRef rid
      let (scope, scopeRid) ← Metadata.decodeIndex .resolutionScope (row.column "ResolutionScope")
      if scope = .assemblyRef ∧ scopeRid ≠ 0 then
        return a.metadata.string ((← a.metadata.row .assemblyRef scopeRid).column "Name")
      else if scope = .typeRef ∧ scopeRid ≠ 0 then typeAssemblyWithin a levels .typeRef scopeRid
      else return a.name
    | .typeSpec => do
      let row ← a.metadata.row .typeSpec rid
      -- Of all specifications only generic instantiations name a declaring type.
      match a.metadata.blob (row.column "Signature") with
      | 0x15 :: _ :: rest =>
        match Compressed.read? rest with
        | none => return ""
        | some (value, _) =>
          match CodedIndex.typeDefOrRef.decode? value with
          | none => throw .badGenericTag
          | some (table, inner) => typeAssemblyWithin a levels table inner
      | _ => return ""
    | _ => return ""

/-- The assembly that declares a type that is found `depth` references into another. -/
def typeAssemblyAt (a : Assembly) (table : Table) (rid : Nat) (depth : Int) : Except LookupError String :=
  a.typeAssemblyWithin (maxNesting + 1 - depth).toNat table rid

/-- The assembly that declares a type. -/
def typeAssembly (a : Assembly) (table : Table) (rid : Nat) : Except LookupError String := a.typeAssemblyAt table rid 0

/-- The assembly that declares a type with the table given by name and any row number. -/
def typeAssemblyIn (a : Assembly) (tableName : String) (rid depth : Int) : Except LookupError String :=
  match typeTables.find? (·.name == tableName), rid with
  | some table, .ofNat rid => a.typeAssemblyAt table rid depth
  | none, _ => return ""
  | some table, rid =>
    if maxNesting < depth then return ""
    else if table = .typeDef then return a.name
    else throw (.noRow tableName rid)

end CilProbe.Assembly
