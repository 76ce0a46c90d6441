import CilProbe.Proofs.Assembly.Methods
import CilProbe.Proofs.Signature.Substitution

/-!
# Generic methods with type arguments

A method specification gives the types of a generic method with type arguments put in.  The assembly works on the names
of these types, but the names are those of the types with the arguments in them (`methodSpec_types`).

The types are those that the signature of the generic method was written from, be it a definition or a reference
(`Generic.exists_method`).
-/

namespace CilProbe.Assembly

open Metadata (Table LookupError)
open Signature (TypeSig MethodSig TypeRow)

variable {a : Assembly} {sig : MethodSig TypeRow} {name : Table → Nat → String}

/-- The rows are types with these names. -/
def Names (a : Assembly) (name : Table → Nat → String) (rows : List TypeRow) : Prop :=
  ∀ row ∈ rows, a.typeName row.table row.rid = .ok (name row.table row.rid)

/-- A row of the method definitions or of the member references is a method with this signature. -/
inductive Generic (a : Assembly) (sig : MethodSig TypeRow) : Table → Nat → Prop
  | definition {rid : Nat} {row : Metadata.Row} {m : Method} {rest : Bytes}
      (found : a.metadata.row .methodDef rid = .ok row)
      (signature : a.metadata.blob (row.column "Signature") = sig.toBytes ++ rest)
      (resolved : a.methodDef rid = .ok m) : Generic a sig .methodDef rid
  | reference {rid : Nat} {row : Metadata.Row} {m : Method} {rest : Bytes}
      (found : a.metadata.row .memberRef rid = .ok row)
      (signature : a.metadata.blob (row.column "Signature") = sig.toBytes ++ rest)
      (resolved : a.memberRef rid = .ok (.inl m)) : Generic a sig .memberRef rid

/-- A row of the method specifications puts type arguments into a method with this signature. -/
def Instantiates (a : Assembly) (rid : Nat) (sig : MethodSig TypeRow) (arguments : List (TypeSig TypeRow)) : Prop :=
  ∃ row table target rest, a.metadata.row .methodSpec rid = .ok row ∧
    Metadata.decodeIndex .methodDefOrRef (row.column "Method") = .ok (table, target) ∧ a.Generic sig table target ∧
    a.metadata.blob (row.column "Instantiation") = TypeSig.instantiationToBytes arguments ++ rest

theorem methodSig_toBytes (hsig : sig.Fits) (hnames : a.Names name sig.references) (rest : Bytes) :
    a.methodSig (sig.toBytes ++ rest) = .ok (sig.map fun row => name row.table row.rid) := by
  have hread : Signature.readMethod a.resolver (.at (sig.toBytes ++ rest) 0) = _ :=
    Signature.readMethod_toBytes hsig hnames rest
  rw [methodSig, hread]
  rfl

/-- The types of a generic method are those of its signature. -/
theorem Generic.exists_method {table : Table} {target : Nat} (h : a.Generic sig table target) (hsig : sig.Fits)
    (hnames : a.Names name sig.references) :
    ∃ m, (table = .methodDef ∧ a.methodDef target = .ok m ∨ table = .memberRef ∧ a.memberRef target = .ok (.inl m)) ∧
      m.parameterTypes = sig.parameters.map (TypeSig.nameWith name) ∧ m.returnType = sig.result.nameWith name := by
  have hread (rest : Bytes) := methodSig_toBytes hsig hnames rest
  have hparameters : TypeSig.renderAll (sig.map fun row => name row.table row.rid).parameters =
      sig.parameters.map (TypeSig.nameWith name) := by
    rw [TypeSig.renderAll_eq, MethodSig.map, TypeSig.mapAll_eq, List.map_map]
    rfl
  cases h with
  | @definition _ row m rest found signature resolved =>
    obtain ⟨row', hdescribed⟩ := describedBy_of_methodDef resolved
    obtain rfl := Except.ok.inj (found.symm.trans hdescribed.found)
    obtain ⟨htypes, hresult, -⟩ := hdescribed.readable _ (signature ▸ hread rest)
    exact ⟨m, .inl ⟨rfl, resolved⟩, htypes.trans hparameters, hresult⟩
  | @reference _ row m rest found signature resolved =>
    obtain ⟨row', _, _, sig', hreferenced⟩ := referencedBy_of_memberRef resolved
    obtain rfl := Except.ok.inj (found.symm.trans hreferenced.found)
    obtain rfl := Except.ok.inj ((signature ▸ hread rest).symm.trans hreferenced.signature)
    exact ⟨m, .inr ⟨rfl, resolved⟩, hreferenced.parameterTypes.trans hparameters, hreferenced.returnType⟩

/-- A method specification replaces type parameters in the names of the types of its generic method. -/
theorem exists_methodSpec {rid target : Nat} {row : Metadata.Row} {table : Table} {m : Method}
    {types : List (TypeSig String)} (hrow : a.metadata.row .methodSpec rid = .ok row)
    (htarget : Metadata.decodeIndex .methodDefOrRef (row.column "Method") = .ok (table, target))
    (hm : table = .methodDef ∧ a.methodDef target = .ok m ∨ table = .memberRef ∧ a.memberRef target = .ok (.inl m))
    (htypes : Signature.readInstantiation a.resolver (a.metadata.blob (row.column "Instantiation")) = .ok types) :
    ∃ m', a.methodSpec rid = .ok m' ∧
      m'.parameterTypes = m.parameterTypes.map (TypeName.substitute (TypeSig.renderAll types)) ∧
      m'.returnType = TypeName.substitute (TypeSig.renderAll types) m.returnType := by
  rw [methodSpec, hrow]
  rcases hm with ⟨rfl, hm⟩ | ⟨rfl, hm⟩
  · simp only [htarget, hm, htypes, signatureResult, bind, Except.bind]
    exact ⟨_, rfl, rfl, rfl⟩
  · simp only [htarget, hm, htypes, signatureResult, bind, Except.bind]
    exact ⟨_, rfl, rfl, rfl⟩

/-- A method specification has the types of its generic method, with the type arguments in place of all type parameters
of the method that have one. -/
theorem methodSpec_types {rid : Nat} {arguments : List (TypeSig TypeRow)} (h : a.Instantiates rid sig arguments)
    (hsig : sig.Fits) (hcount : arguments.length < 2 ^ 29) (harguments : ∀ t ∈ arguments, t.Fits)
    (hnames : a.Names name (sig.references ++ TypeSig.allReferences arguments))
    (hplain : ∀ row ∈ sig.references, '!' ∉ (name row.table row.rid).toList) :
    ∃ m, a.methodSpec rid = .ok m ∧
      m.parameterTypes = sig.parameters.map (fun t => (t.substitute arguments).nameWith name) ∧
      m.returnType = (sig.result.substitute arguments).nameWith name := by
  obtain ⟨row, table, target, rest, hrow, htarget, hgeneric, hblob⟩ := h
  obtain ⟨hsigNames, hargumentNames⟩ := List.forall_mem_append.1 hnames
  obtain ⟨m, hm, hparameters, hresult⟩ := hgeneric.exists_method hsig hsigNames
  have hread : Signature.readInstantiation a.resolver (a.metadata.blob (row.column "Instantiation")) = _ :=
    hblob ▸ Signature.readInstantiation_toBytes hcount (TypeSig.allFit_iff.2 harguments) hargumentNames rest
  obtain ⟨m', hm', hparameters', hresult'⟩ := exists_methodSpec hrow htarget hm hread
  have hshown : TypeSig.renderAll (arguments.map (TypeSig.map fun row => name row.table row.rid)) =
      arguments.map (TypeSig.nameWith name) := by
    rw [TypeSig.renderAll_eq, List.map_map]
    rfl
  rw [hshown] at hparameters' hresult'
  obtain ⟨hplainResult, hplainParameters⟩ := List.forall_mem_append.1 hplain
  refine ⟨m', hm', ?_, ?_⟩
  · rw [hparameters', hparameters, List.map_map]
    exact List.map_congr_left fun t ht => Signature.substitute_nameWith name arguments fun row hrow =>
      hplainParameters row (TypeSig.mem_allReferences.2 ⟨t, ht, hrow⟩)
  · rw [hresult', hresult]
    exact Signature.substitute_nameWith name arguments hplainResult

/-- A method with two type parameters, and a parameter type that mentions one it does not have. -/
private def pairing : MethodSig TypeRow where
  convention := 0x10
  genericParameters := 2
  result := .generic false ⟨.typeDef, 1⟩ [.methodVar 1, .vector (.methodVar 0)]
  parameters := [.pointer (.methodVar 0), .function 0x00 0 (.methodVar 12) [.typeVar 0]]

/-- Metadata of a type `A` with a method of that signature, and this method with type arguments. -/
private def withPairing (arguments : List (TypeSig TypeRow)) : Buffer :=
  let signature := pairing.toBytes
  let instantiation := TypeSig.instantiationToBytes arguments
  ([0x42, 0x53, 0x4A, 0x42, 1, 0, 1, 0, 0, 0, 0, 0, 4, 0, 0, 0, 0x76, 0x34, 0, 0, 0, 0, 3, 0,
    72, 0, 0, 0, 68, 0, 0, 0, 0x23, 0x7E, 0, 0,
    140, 0, 0, 0, 7, 0, 0, 0, 0x23, 0x53, 0x74, 0x72, 0x69, 0x6E, 0x67, 0x73, 0, 0, 0, 0,
    147, 0, 0, 0, 64, 0, 0, 0, 0x23, 0x42, 0x6C, 0x6F, 0x62, 0, 0, 0,
    0, 0, 0, 0, 2, 0, 0, 1, 0x44, 0, 0, 0, 0, 8, 0, 0, 0, 0, 0, 0, 0, 0, 0, 0, 1, 0, 0, 0, 1, 0, 0, 0, 1, 0, 0, 0,
    1, 0, 0, 0, 1, 0, 0, 0, 0, 0, 1, 0, 1, 0,
    0x50, 0x20, 0, 0, 0, 0, 0x10, 0, 3, 0, 1, 0, 1, 0,
    2, 0, 2 + signature.length.toUInt8, 0,
    0, 0x41, 0, 0x52, 0x75, 0x6E, 0, 0] ++ (signature.length.toUInt8 :: signature) ++
    (instantiation.length.toUInt8 :: instantiation) ++ List.replicate 64 0 : Bytes).toArray

private def hasPairing (arguments : List (TypeSig TypeRow)) (metadata : Metadata) : Bool :=
  let a := ofMetadata metadata
  ((metadata.row .methodSpec 1).toOption.any fun row =>
      (Metadata.decodeIndex .methodDefOrRef (row.column "Method")).toOption == some (.methodDef, 1) &&
        metadata.blob (row.column "Instantiation") == TypeSig.instantiationToBytes arguments) &&
    ((metadata.row .methodDef 1).toOption.any fun row => metadata.blob (row.column "Signature") == pairing.toBytes) &&
    (a.methodDef 1).toOption.isSome && (a.typeName .typeDef 1).toOption == some "A"

private theorem instantiates_of_hasPairing {arguments : List (TypeSig TypeRow)} {metadata : Metadata}
    (h : hasPairing arguments metadata = true) :
    (ofMetadata metadata).Instantiates 1 pairing arguments ∧
      (ofMetadata metadata).typeName .typeDef 1 = .ok "A" := by
  simp only [hasPairing, Bool.and_eq_true, beq_iff_eq, Option.any_eq_true, Option.isSome_iff_exists] at h
  obtain ⟨⟨⟨⟨row, hrow, htarget, hinstantiation⟩, row', hrow', hsignature⟩, m, hm⟩, hname⟩ := h
  refine ⟨⟨row, .methodDef, 1, [], eq_ok_of_toOption hrow, eq_ok_of_toOption htarget, ?_, ?_⟩, eq_ok_of_toOption hname⟩
  · exact .definition (eq_ok_of_toOption hrow') (hsignature.trans (List.append_nil _).symm)
      (eq_ok_of_toOption hm)
  · exact hinstantiation.trans (List.append_nil _).symm

private theorem fits_pairing : pairing.Fits := by
  simp [pairing, MethodSig.Fits, TypeSig.Fits, TypeSig.AllFit, Signature.ConventionFits, TypeRow.Fits,
    MethodSig.isGeneric, MethodSig.genericFlag]
  decide

theorem methodSpec_types_pairing :
    let arguments : List (TypeSig TypeRow) := [.methodVar 1, .primitive .int32]
    ∃ metadata, Metadata.read (withPairing arguments) = .ok metadata ∧
      (ofMetadata metadata).Instantiates 1 pairing arguments ∧ pairing.Fits ∧
      ∃ m, (ofMetadata metadata).methodSpec 1 = .ok m ∧ m.parameterTypes = ["!!1*", "method !!12 *(!0)"] ∧
        m.returnType = "A<System.Int32,!!1[]>" := by
  intro arguments
  have hcheck : (Metadata.read (withPairing arguments)).toOption.any (hasPairing arguments) = true := by
    decide +kernel
  obtain ⟨metadata, hread, hpairing⟩ := (Option.any_eq_true _ _).1 hcheck
  obtain ⟨hinstantiates, hname⟩ := instantiates_of_hasPairing hpairing
  have hrows : ∀ row ∈ pairing.references ++ TypeSig.allReferences arguments, row = ⟨.typeDef, 1⟩ := by decide
  have hnames : (ofMetadata metadata).Names (fun _ _ => "A")
      (pairing.references ++ TypeSig.allReferences arguments) := by
    intro row hrow
    rw [hrows row hrow]
    exact hname
  obtain ⟨m, hm, hparameters, hresult⟩ := methodSpec_types hinstantiates fits_pairing (by decide)
    (by simp [arguments, TypeSig.Fits]) hnames (by decide)
  exact ⟨metadata, eq_ok_of_toOption hread, hinstantiates, fits_pairing, m, hm, hparameters, hresult⟩

end CilProbe.Assembly
