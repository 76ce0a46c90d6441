import CilProbe.Assembly.Members
import CilProbe.Proofs.Metadata.Layout
import CilProbe.Proofs.Signature.Failure

/-!
# Which failures listing the methods meets

Whatever the metadata refers to, naming a type and reading the definition of a method fail only with errors that are
tolerated: something is missing or invalid.  The other errors need a row outside the data, which laid out tables do
not have, an offset below zero, which no row holds, or the search for the assembly of a type, which is not made for a
definition.  So the methods are always listed (`tryMethods_eq`).
-/

namespace CilProbe.Assembly

open Metadata (Table LookupError CodedIndex)

/-- Fails only with errors that are tolerated. -/
abbrev Tolerable {α : Type} (x : Except LookupError α) : Prop := OnlyFails (·.isTolerated) x

theorem exists_tolerate_eq_ok {α : Type} {x : Except LookupError α} (hx : Tolerable x) (fallback : α) :
    ∃ y, LookupError.tolerate fallback x = .ok y := by
  cases x with
  | ok y => exact ⟨y, rfl⟩
  | error e => exact ⟨fallback, if_pos (hx e rfl)⟩

theorem tolerable_decodeIndex (kind : CodedIndex) (value : Nat) :
    Tolerable (Metadata.decodeIndex kind value) := by
  rw [Metadata.decodeIndex]
  split
  · exact .ok _
  · exact .error rfl

private theorem tolerable_signatureResult {α : Type} {x : Except (Signature.ReadError LookupError) α}
    (hx : OnlyFails (Signature.ReadError.Of (·.isTolerated)) x) : Tolerable (signatureResult x) := by
  refine hx.mapError fun e he => ?_
  cases e with
  | flaw flaw => rfl
  | unnamed e => exact he

/-- A row of a coded column is one of a table that the column may refer to. -/
theorem mem_tables_of_decodeIndex {kind : CodedIndex} {value rid : Nat} {table : Table}
    (h : Metadata.decodeIndex kind value = .ok (table, rid)) : table ∈ kind.tables := by
  rw [Metadata.decodeIndex, CodedIndex.decode?] at h
  cases htable : kind.tables[kind.tag value]? with
  | none =>
    rw [htable] at h
    contradiction
  | some found =>
    rw [htable] at h
    cases h
    exact List.mem_of_getElem? htable

theorem eq_ok_of_signatureResult {α : Type} {x : Except (Signature.ReadError LookupError) α} {r : α}
    (h : signatureResult x = .ok r) : x = .ok r := by
  cases x with
  | error e => contradiction
  | ok r' =>
    cases h
    rfl

variable {a : Assembly} (h : a.metadata.LaidOut)
include h

theorem tolerable_row (table : Table) (rid : Nat) : Tolerable (a.metadata.row table rid) := by
  refine (h.row table rid).mono ?_
  rintro _ rfl
  rfl

/-! ### Names of types -/

private theorem tolerable_typeDefName (levels rid : Nat) : Tolerable (a.typeDefName levels rid) := by
  induction levels generalizing rid with
  | zero => exact .error rfl
  | succ levels ih =>
    rw [typeDefName]
    refine (tolerable_row h .typeDef rid).bind fun row => ?_
    split
    · exact (ih _).bind fun _ => .pure _
    · exact .pure _

private theorem tolerable_typeRefName (levels rid : Nat) : Tolerable (a.typeRefName levels rid) := by
  induction levels generalizing rid with
  | zero => exact .error rfl
  | succ levels ih =>
    rw [typeRefName]
    refine (tolerable_row h .typeRef rid).bind fun row => (tolerable_decodeIndex _ _).bind fun (scope, scopeRid) => ?_
    dsimp only
    split
    · exact (ih _).bind fun _ => .pure _
    · exact .pure _

theorem tolerable_typeNameWithin (specs : Nat) (pending : List Nat) (table : Table) (levels rid : Nat) :
    Tolerable (a.typeNameWithin specs pending table levels rid) := by
  induction specs generalizing pending table levels rid with
  | zero =>
    unfold typeNameWithin
    split
    · exact .error rfl
    split
    · exact tolerable_typeDefName h _ _
    · exact tolerable_typeRefName h _ _
    · exact .error rfl
    · contradiction
    · exact .error rfl
  | succ specs ih =>
    unfold typeNameWithin
    split
    · exact .error rfl
    split
    · exact tolerable_typeDefName h _ _
    · exact tolerable_typeRefName h _ _
    · contradiction
    · next hspecs =>
      cases hspecs
      split
      · exact .error rfl
      · have hread (c : Signature.Cursor) := Signature.readType_fails (ih (rid :: pending) · (maxNesting + 1) ·) c
        exact (tolerable_row h .typeSpec rid).bind fun row =>
          (tolerable_signatureResult (hread _)).bind fun _ => .pure _
    · exact .error rfl

theorem tolerable_typeName (table : Table) (rid : Nat) : Tolerable (a.typeName table rid) := by
  rw [typeName, typeNameAt]
  exact tolerable_typeNameWithin h _ _ _ _ _

/-! ### Assemblies of types -/

private theorem tolerable_typeAssemblyWithin_typeRef (levels rid : Nat) :
    Tolerable (a.typeAssemblyWithin levels .typeRef rid) := by
  induction levels generalizing rid with
  | zero => exact .pure _
  | succ levels ih =>
    rw [typeAssemblyWithin]
    refine (tolerable_row h .typeRef rid).bind fun row => (tolerable_decodeIndex _ _).bind fun (scope, scopeRid) => ?_
    dsimp only
    split
    · exact (tolerable_row h .assemblyRef scopeRid).bind fun _ => .pure _
    split
    · exact ih scopeRid
    · exact .pure _

omit h in
private theorem readType_generic (resolve : Table → Nat → Except LookupError String) (kind : UInt8) (rest : Bytes) :
    Signature.readType resolve (.at (0x15 :: kind :: rest) 0) = (do
      let (name, c) ← Signature.readReference resolve ⟨0 + 1 + 1, rest⟩
      let (arguments, c) ← Signature.readCounted (Signature.readTypeWithin resolve (rest.length + 2)) c
      return (.generic (some kind == some 0x11) name arguments, c)) := rfl

omit h in
/-- The type that a generic instantiation begins with has a name if the instantiation has one. -/
private theorem exists_named_of_generic {resolve : Table → Nat → Except LookupError String} {kind : UInt8}
    {rest : Bytes} {value size : Nat} {result : Signature.TypeSig String × Signature.Cursor}
    (hread : Compressed.read? rest = some (value, size))
    (hresult : Signature.readType resolve (.at (0x15 :: kind :: rest) 0) = .ok result) :
    ∃ table rid name, CodedIndex.typeDefOrRef.decode? value = some (table, rid) ∧ resolve table rid = .ok name := by
  rw [readType_generic] at hresult
  obtain ⟨⟨name, after⟩, hname, -⟩ := exists_of_bind_eq_ok hresult
  rw [Signature.readReference, Signature.Reading.reference] at hname
  obtain ⟨⟨number, after'⟩, hnumber, hname⟩ := exists_of_bind_eq_ok hname
  rw [Signature.readNumber] at hnumber
  simp only [hread] at hnumber
  cases hnumber
  dsimp only at hname
  cases hdecode : CodedIndex.typeDefOrRef.decode? value with
  | none =>
    rw [hdecode] at hname
    contradiction
  | some target =>
    rw [hdecode] at hname
    obtain ⟨found, hfound, -⟩ := exists_of_bind_eq_ok hname
    rw [Signature.orUnnamed] at hfound
    cases hresolve : resolve target.1 target.2 with
    | error e =>
      rw [hresolve] at hfound
      contradiction
    | ok name => exact ⟨target.1, target.2, name, rfl, hresolve⟩

omit h in
/-- A specification that has a name has a row, and its signature was read. -/
private theorem exists_read_of_typeSpec {specs nesting rid : Nat} {pending : List Nat} {name : String}
    (hname : a.typeNameWithin specs pending .typeSpec nesting rid = .ok name) :
    ∃ left row result, a.metadata.row .typeSpec rid = .ok row ∧
      Signature.readType (fun table inner => a.typeNameWithin left (rid :: pending) table (maxNesting + 1) inner)
        (.at (a.metadata.blob (row.column "Signature")) 0) = .ok result := by
  unfold typeNameWithin at hname
  split at hname
  · contradiction
  cases specs with
  | zero => contradiction
  | succ left =>
    dsimp only at hname
    split at hname
    · contradiction
    obtain ⟨row, hrow, hname⟩ := exists_of_bind_eq_ok hname
    obtain ⟨result, hresult, -⟩ := exists_of_bind_eq_ok hname
    refine ⟨left, row, result, hrow, ?_⟩
    cases hread : Signature.readType (fun table inner =>
        a.typeNameWithin left (rid :: pending) table (maxNesting + 1) inner)
        (.at (a.metadata.blob (row.column "Signature")) 0) with
    | error e =>
      rw [hread] at hresult
      contradiction
    | ok found =>
      rw [hread] at hresult
      cases hresult
      rfl

/-- The assembly of a type that has a name is found, or something is missing. The search for it follows the references
that were followed for the name, which would have failed at a tag that stands for no table. -/
theorem tolerable_typeAssemblyWithin {specs nesting : Nat} {pending : List Nat} {table : Table} {rid : Nat}
    {name : String} (hname : a.typeNameWithin specs pending table nesting rid = .ok name) (levels : Nat) :
    Tolerable (a.typeAssemblyWithin levels table rid) := by
  induction levels generalizing specs nesting pending table rid name with
  | zero => exact .pure _
  | succ levels ih =>
    cases table with
    | typeRef => exact tolerable_typeAssemblyWithin_typeRef h _ rid
    | typeSpec =>
      unfold typeAssemblyWithin
      obtain ⟨left, row, result, hrow, hresult⟩ := exists_read_of_typeSpec hname
      simp only [hrow, bind, Except.bind]
      generalize a.metadata.blob (row.column "Signature") = blob at hresult
      split
      · next rest =>
        split
        · exact .pure _
        · next hread =>
          obtain ⟨table, inner, _, hdecode, hinner⟩ := exists_named_of_generic hread hresult
          rw [hdecode]
          exact ih hinner
      · exact .pure _
    | _ => exact .pure _

/-! ### Definitions of methods -/

private theorem tolerable_ownerName (owner? : Option Nat) : Tolerable (a.ownerName owner?) := by
  cases owner? with
  | none => exact .pure _
  | some owner => exact tolerable_typeName h .typeDef owner

theorem tolerable_methodSig (blob : Bytes) : Tolerable (a.methodSig blob) := by
  rw [methodSig]
  have hread := Signature.readMethod_fails (tolerable_typeName h) (.at blob 0)
  exact (tolerable_signatureResult hread).bind fun _ => .pure _

private theorem tolerable_parameterNames (rid first : Nat) : Tolerable (a.parameterNames rid first) := by
  rw [parameterNames]
  have hrest (stop : Nat) : Tolerable (do
      let count := a.metadata.rowCount .param
      let rows ← (List.range' first (min stop (count + 1) - first)).mapM (a.metadata.row .param)
      let named := ((rows.filter fun row => 0 < row.column "Sequence").map fun row =>
        (row.column "Sequence", a.metadata.string (row.column "Name"))).reverse
      let last := Metadata.largest (named.map (·.1))
      return (List.range' 1 last).map fun sequence => (named.lookup sequence).getD "") :=
    (OnlyFails.mapM (tolerable_row h .param) _).bind fun _ => .pure _
  dsimp only
  split
  · exact ((tolerable_row h .methodDef (rid + 1)).map _).bind hrest
  · exact hrest _

theorem tolerable_methodDef (rid : Nat) : Tolerable (a.methodDef rid) := by
  rw [methodDef]
  refine (tolerable_row h .methodDef rid).bind fun row => (tolerable_ownerName h _).bind fun declaringType => ?_
  have hsignature : Tolerable (do
      let sig ← a.methodSig (a.metadata.blob (row.column "Signature"))
      return (Signature.TypeSig.renderAll sig.parameters, sig.result.render, sig.genericParameters)) :=
    (tolerable_methodSig h _).bind fun _ => .pure _
  obtain ⟨types, htypes⟩ := exists_tolerate_eq_ok hsignature ([], "?", 0)
  rw [htypes]
  exact (tolerable_parameterNames h _ _).bind fun _ => .pure _

/-- The methods are listed without a failure. -/
theorem tryMethods_eq : a.tryMethods = .ok a.methods := by
  have hfound : ∃ found, (List.range' 1 (a.metadata.rowCount .methodDef)).mapM (fun rid =>
      LookupError.tolerate none (some <$> a.methodDef rid)) = .ok found := by
    refine exists_mapM_eq_ok_iff.2 fun rid _ => ?_
    exact exists_tolerate_eq_ok ((tolerable_methodDef h rid).map some) none
  obtain ⟨found, hfound⟩ := hfound
  rw [methods, tryMethods, hfound]
  rfl

end CilProbe.Assembly
