import CilProbe.Assembly.Members
import CilProbe.Inspection.TypeNames

/-!
# Members of an assembly, with a memory

Tokens are resolved as without a memory. A method definition that has been read is not read again; one that could not be
read is tried again each time.
-/

namespace CilProbe.Inspection

open Metadata (Table LookupError)
open Signature (TypeSig MethodSig)

variable {σ : Type} (m : Metadata)

def methodSig (blob : Bytes) : Inspection σ (MethodSig String) := do
  let (sig, _) ← Signature.Reading.method (typeName m) (.at blob 0)
  return sig

def fieldType (blob : Bytes) : Inspection σ String := do
  let type ← Signature.Reading.field (typeName m) blob
  return type.render

/-- The type that owns a member, by name. -/
def ownerName : Option Nat → Inspection σ String
  | some owner => typeName m .typeDef owner
  | none => return TypeName.moduleType

/-- The names of the parameters of a method definition, as far as the last parameter that is described. Of two
descriptions of one parameter the last one counts. -/
def parameterNames (rid first : Nat) : Inspection σ (List String) := do
  let count := m.rowCount .param
  let stop ← if rid < m.rowCount .methodDef then (·.column "ParamList") <$> row m .methodDef (rid + 1 : Nat)
    else pure (count + 1)
  let rows ← (List.range' first (min stop (count + 1) - first)).mapM fun (rid : Nat) => row m .param rid
  let named := ((rows.filter fun row => 0 < row.column "Sequence").map fun row =>
    (row.column "Sequence", m.string (row.column "Name"))).reverse
  let last := Metadata.largest (named.map (·.1))
  return (List.range' 1 last).map fun sequence => (named.lookup sequence).getD ""

/-- The method of a definition, from its row. -/
def readMethodDef (rid : Nat) : Inspection σ Method := do
  let row ← row m .methodDef rid
  let owner := (← methodOwners m).owner? rid
  let declaringType ← ownerName m owner
  let (parameterTypes, returnType, genericParameters) ← tolerated ([], "?", 0) do
    let sig ← methodSig m (m.blob (row.column "Signature"))
    return (TypeSig.renderAll sig.parameters, sig.result.render, sig.genericParameters)
  let generic ← genericOwners m
  let isGenericDefinition := 0 < genericParameters || generic.contains (.methodDef, rid)
  return {
    declaringType
    name := m.string (row.column "Name")
    parameterTypes
    returnType
    isStatic := row.column "Flags" &&& Method.staticFlag ≠ 0
    isGenericDefinition
    containsGenericParameters := isGenericDefinition || owner.any (fun owner => generic.contains (.typeDef, owner)) ||
      (parameterTypes ++ [returnType]).any TypeName.mentionsVariable
    assembly := ← name m
    token := Metadata.Token.make .methodDef rid
    rva := row.column "RVA"
    flags := row.column "Flags"
    parameterNames := ← parameterNames m rid (row.column "ParamList") }

/-- The method of a definition. -/
def methodDef (rid : Nat) : Inspection σ Method :=
  remembered (·.methods.lookup rid) (fun method memory => { memory with methods := (rid, method) :: memory.methods })
    (readMethodDef m rid)

/-- The method of a definition with any row number. -/
def methodDefAt : (rid : Int) → Inspection σ Method
  | .ofNat rid => methodDef m rid
  | rid => do
    let _ ← rows m .methodDef
    throw (.noRow Table.methodDef.name rid)

/-- The methods that the assembly defines, in order. A method whose type has no name is left out. -/
def methods : Inspection σ (List Method) := do
  let found ← (List.range' 1 (m.rowCount .methodDef)).mapM fun rid => tolerated none (some <$> methodDef m rid)
  return found.reduceOption

/-- The method definition that a token names. -/
def findMethod (token : Int) : Inspection σ Method :=
  if Metadata.Token.table? token = some .methodDef then methodDef m (Metadata.Token.rid token)
  else throw (.notMethodToken token)

/-- The type and the assembly that a member reference belongs to. -/
def memberParent (table : Table) (rid : Nat) : Inspection σ (String × String) :=
  match table with
  | .methodDef => do
    let parent ← methodDef m rid
    return (parent.declaringType, parent.assembly)
  | .moduleRef => do
    let row ← row m .moduleRef rid
    return (TypeName.moduleType, m.string (row.column "Name"))
  | table => do
    let type ← typeName m table rid
    return (type, ← typeAssembly m table rid)

/-- The method or field of a member reference. -/
def memberRef (rid : Nat) : Inspection σ (Method ⊕ Field) := do
  let row ← row m .memberRef rid
  let name := m.string (row.column "Name")
  let (table, parent) ← Metadata.decodeIndex .memberRefParent (row.column "Class")
  let (declaringType, assembly) ← memberParent m table parent
  let blob := m.blob (row.column "Signature")
  if Signature.isField blob then return .inr { declaringType, name, type := ← fieldType m blob }
  else
    let sig ← methodSig m blob
    let parameterTypes := TypeSig.renderAll sig.parameters
    let returnType := sig.result.render
    return .inl {
      declaringType, name, parameterTypes, returnType, assembly
      isStatic := !sig.hasThis
      isGenericDefinition := 0 < sig.genericParameters
      hasGenericArguments := declaringType.toList.contains '<'
      containsGenericParameters := (parameterTypes ++ [returnType, declaringType]).any TypeName.mentionsVariable
      token := Metadata.Token.make .memberRef rid }

/-- A generic method with its type arguments put in. -/
def methodSpec (rid : Nat) : Inspection σ Method := do
  let row ← row m .methodSpec rid
  let (table, target) ← Metadata.decodeIndex .methodDefOrRef (row.column "Method")
  let method ←
    if table = .methodDef then methodDef m target
    else
      match ← memberRef m target with
      | .inl method => pure method
      | .inr _ => throw (.notMethod rid)
  let types ← Signature.Reading.instantiation (typeName m) (m.blob (row.column "Instantiation"))
  let arguments := TypeSig.renderAll types
  let parameterTypes := method.parameterTypes.map (TypeName.substitute arguments)
  let returnType := TypeName.substitute arguments method.returnType
  return { method with
    parameterTypes, returnType
    isGenericDefinition := false
    hasGenericArguments := true
    containsGenericParameters := (parameterTypes ++ returnType :: arguments).any TypeName.mentionsVariable
    token := Metadata.Token.make .methodSpec rid }

/-- The field of a definition; its type stays empty if it cannot be read. -/
def fieldDef (rid : Nat) : Inspection σ Field := do
  let row ← row m .field rid
  let declaringType ← ownerName m ((← fieldOwners m).owner? rid)
  let type ← tolerated "" (fieldType m (m.blob (row.column "Signature")))
  return { declaringType, name := m.string (row.column "Name"), type }

/-- The member or type that a token names. -/
def resolveMember (token : Int) : Inspection σ Reference :=
  let rid := Metadata.Token.rid token
  match Metadata.Token.table? token with
  | some .methodDef => .method <$> methodDef m rid
  | some .memberRef => (fun
    | .inl method => .method method
    | .inr field => .field field) <$> memberRef m rid
  | some .methodSpec => .method <$> methodSpec m rid
  | some .field => .field <$> fieldDef m rid
  | some .typeDef => .type <$> typeName m .typeDef rid
  | some .typeRef => .type <$> typeName m .typeRef rid
  | some .typeSpec => .type <$> typeName m .typeSpec rid
  | table => throw (.notMember token table)

/-- What a token names. -/
def resolve (token : Int) : Inspection σ Reference :=
  if Metadata.Token.isString token then .text <$> (m.userStringOf token : Except _ _) else resolveMember m token

end CilProbe.Inspection
