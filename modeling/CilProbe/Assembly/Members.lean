import CilProbe.Assembly.TypeNames
import CilProbe.Method

/-!
# Members of an assembly

Tokens are resolved to what they name: a method, a field, a type or a literal string. A method whose signature cannot be
read keeps its name; a reference with a bad signature is not resolved.
-/

namespace CilProbe

/-- What a token names. -/
inductive Reference where
  | text (value : String)
  | method (method : Method)
  | field (field : Field)
  | type (name : String)
  deriving DecidableEq, Repr

/-- The text of a reference in a listing. -/
def Reference.text? : Reference → Option String
  | text value => some (Text.quoted value)
  | method m => some m.id
  | field f => some f.id
  | type name => some name

namespace Assembly

open Metadata (Table LookupError Token.rid)
open Signature (TypeSig MethodSig)

/-- The types of a signature by name. -/
def resolver (a : Assembly) (table : Table) (rid : Nat) : Except LookupError String := a.typeName table rid

def methodSig (a : Assembly) (blob : Bytes) : Except LookupError (MethodSig String) := do
  let (sig, _) ← signatureResult (Signature.readMethod a.resolver (.at blob 0))
  return sig

def fieldType (a : Assembly) (blob : Bytes) : Except LookupError String := do
  let type ← signatureResult (Signature.readField a.resolver blob)
  return type.render

/-- The type that owns a member, by name. -/
def ownerName (a : Assembly) : Option Nat → Except LookupError String
  | some owner => a.typeName .typeDef owner
  | none => return TypeName.moduleType

/-- The names of the parameters of a method definition, as far as the last parameter that is described. Of two
descriptions of one parameter the last one counts. -/
def parameterNames (a : Assembly) (rid : Nat) (first : Nat) : Except LookupError (List String) := do
  let count := a.metadata.rowCount .param
  let stop ← if rid < a.metadata.rowCount .methodDef then
      (a.metadata.row .methodDef (rid + 1)).map (·.column "ParamList")
    else pure (count + 1)
  let rows ← (List.range' first (min stop (count + 1) - first)).mapM (a.metadata.row .param)
  let named := ((rows.filter fun row => 0 < row.column "Sequence").map fun row =>
    (row.column "Sequence", a.metadata.string (row.column "Name"))).reverse
  let last := Metadata.largest (named.map (·.1))
  return (List.range' 1 last).map fun sequence => (named.lookup sequence).getD ""

/-- The method of a definition. -/
def methodDef (a : Assembly) (rid : Nat) : Except LookupError Method := do
  let row ← a.metadata.row .methodDef rid
  let owner := a.methodOwners.owner? rid
  let declaringType ← a.ownerName owner
  let (parameterTypes, returnType, genericParameters) ← LookupError.tolerate ([], "?", 0) do
    let sig ← a.methodSig (a.metadata.blob (row.column "Signature"))
    return (TypeSig.renderAll sig.parameters, sig.result.render, sig.genericParameters)
  let isGenericDefinition := 0 < genericParameters || a.isGeneric .methodDef rid
  return {
    declaringType
    name := a.metadata.string (row.column "Name")
    parameterTypes
    returnType
    isStatic := row.column "Flags" &&& Method.staticFlag ≠ 0
    isGenericDefinition
    containsGenericParameters := isGenericDefinition || owner.any (a.isGeneric .typeDef) ||
      (parameterTypes ++ [returnType]).any TypeName.mentionsVariable
    assembly := a.name
    token := Metadata.Token.make .methodDef rid
    rva := row.column "RVA"
    flags := row.column "Flags"
    parameterNames := ← a.parameterNames rid (row.column "ParamList") }

/-- The methods that the assembly defines, in order, unless there is a failure that is not tolerated. A method whose
type has no name is left out. -/
def tryMethods (a : Assembly) : Except LookupError (List Method) := do
  let found ← (List.range' 1 (a.metadata.rowCount .methodDef)).mapM fun rid =>
    LookupError.tolerate none (some <$> a.methodDef rid)
  return found.reduceOption

/-- The methods that the assembly defines, in order. -/
def methods (a : Assembly) : List Method := a.tryMethods.toOption.getD []

/-- The method definition that a token names. -/
def findMethod (a : Assembly) (token : Int) : Except LookupError Method :=
  if Metadata.Token.table? token = some .methodDef then a.methodDef (Metadata.Token.rid token)
  else throw (.notMethodToken token)

/-- The type and the assembly that a member reference belongs to. -/
def memberParent (a : Assembly) (table : Table) (rid : Nat) : Except LookupError (String × String) :=
  match table with
  | .methodDef => do
    let parent ← a.methodDef rid
    return (parent.declaringType, parent.assembly)
  | .moduleRef => do
    let row ← a.metadata.row .moduleRef rid
    return (TypeName.moduleType, a.metadata.string (row.column "Name"))
  | table => do
    let type ← a.typeName table rid
    return (type, ← a.typeAssembly table rid)

/-- The method or field of a member reference. -/
def memberRef (a : Assembly) (rid : Nat) : Except LookupError (Method ⊕ Field) := do
  let row ← a.metadata.row .memberRef rid
  let name := a.metadata.string (row.column "Name")
  let (table, parent) ← Metadata.decodeIndex .memberRefParent (row.column "Class")
  let (declaringType, assembly) ← a.memberParent table parent
  let blob := a.metadata.blob (row.column "Signature")
  if Signature.isField blob then return .inr { declaringType, name, type := ← a.fieldType blob }
  else
    let sig ← a.methodSig blob
    let parameterTypes := TypeSig.renderAll sig.parameters
    let returnType := sig.result.render
    return .inl {
      declaringType, name, parameterTypes, returnType, assembly
      isStatic := !sig.hasThis
      isGenericDefinition := 0 < sig.genericParameters
      hasGenericArguments := declaringType.toList.contains '<'
      containsGenericParameters := (parameterTypes ++ [returnType, declaringType]).any TypeName.mentionsVariable
      token := Metadata.Token.make .memberRef rid }

/-- A generic method with its type arguments put in. -/
def methodSpec (a : Assembly) (rid : Nat) : Except LookupError Method := do
  let row ← a.metadata.row .methodSpec rid
  let (table, target) ← Metadata.decodeIndex .methodDefOrRef (row.column "Method")
  let method ←
    if table = .methodDef then a.methodDef target
    else
      match ← a.memberRef target with
      | .inl method => pure method
      | .inr _ => throw (.notMethod rid)
  let types ← signatureResult
    (Signature.readInstantiation a.resolver (a.metadata.blob (row.column "Instantiation")))
  let arguments := TypeSig.renderAll types
  let parameterTypes := method.parameterTypes.map (TypeName.substitute arguments)
  let returnType := TypeName.substitute arguments method.returnType
  return { method with
    parameterTypes, returnType
    isGenericDefinition := false
    hasGenericArguments := true
    containsGenericParameters := (parameterTypes ++ returnType :: arguments).any TypeName.mentionsVariable
    token := Metadata.Token.make .methodSpec rid }

/-- The field of a definition; its type stays empty if it cannot be read. -/
def fieldDef (a : Assembly) (rid : Nat) : Except LookupError Field := do
  let row ← a.metadata.row .field rid
  let declaringType ← a.ownerName (a.fieldOwners.owner? rid)
  let type ← LookupError.tolerate "" (a.fieldType (a.metadata.blob (row.column "Signature")))
  return { declaringType, name := a.metadata.string (row.column "Name"), type }

/-- The member or type that a token names. -/
def resolveMember (a : Assembly) (token : Int) : Except LookupError Reference :=
  let rid := Metadata.Token.rid token
  match Metadata.Token.table? token with
  | some .methodDef => (a.methodDef rid).map .method
  | some .memberRef => (a.memberRef rid).map fun
    | .inl method => .method method
    | .inr field => .field field
  | some .methodSpec => (a.methodSpec rid).map .method
  | some .field => (a.fieldDef rid).map .field
  | some .typeDef => (a.typeName .typeDef rid).map .type
  | some .typeRef => (a.typeName .typeRef rid).map .type
  | some .typeSpec => (a.typeName .typeSpec rid).map .type
  | table => throw (.notMember token table)

/-- What a token names. -/
def resolve (a : Assembly) (token : Int) : Except LookupError Reference :=
  if Metadata.Token.isString token then (a.metadata.userStringOf token).map .text else a.resolveMember token

end Assembly

end CilProbe
