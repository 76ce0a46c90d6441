import CilProbe.Proofs.Assembly.Instantiation
import CilProbe.Proofs.Signature.Marks

/-!
# What type arguments close

A generic method with type arguments is the same method with other types (`methodSpec_eq`).  It depends on type
parameters if one is left in these types or in the arguments, or if a name is spelled like one (`methodSpec_flags`).
The type that the method belongs to does not count: a method of an open type seems closed with closed arguments
(`methodSpec_flags_box`).
-/

namespace CilProbe.Assembly

open Metadata (Table LookupError)
open Signature (TypeSig MethodSig Mark)

variable {a : Assembly} {rid : Nat} {m' : Method}

/-- The types in the signature of a method; none if it cannot be read. -/
def signatureTypes (a : Assembly) (table : Table) (rid : Nat) : List (TypeSig String) :=
  match a.metadata.row table rid with
  | .ok row =>
    match a.methodSig (a.metadata.blob (row.column "Signature")) with
    | .ok sig => sig.result :: sig.parameters
    | .error _ => []
  | .error _ => []

/-- A row of the method definitions or of the member references is a method. -/
def IsMethod (a : Assembly) (table : Table) (rid : Nat) (m : Method) : Prop :=
  table = .methodDef ∧ a.methodDef rid = .ok m ∨ table = .memberRef ∧ a.memberRef rid = .ok (.inl m)

private theorem any_mentionsVariable_iff (texts : List String) :
    texts.any TypeName.mentionsVariable = true ↔ ∃ text ∈ texts, '!' ∈ text.toList := by
  simp [List.any_eq_true, TypeName.mentionsVariable]

/-- A method specification is its generic method, but for the types and what follows from them. -/
theorem methodSpec_eq (h : a.methodSpec rid = .ok m') :
    ∃ row table target m types,
      a.metadata.row .methodSpec rid = .ok row ∧
      Metadata.decodeIndex .methodDefOrRef (row.column "Method") = .ok (table, target) ∧ a.IsMethod table target m ∧
      Signature.readInstantiation a.resolver (a.metadata.blob (row.column "Instantiation")) = .ok types ∧
      m' = { m with
        parameterTypes := m.parameterTypes.map (TypeName.substitute (TypeSig.renderAll types))
        returnType := TypeName.substitute (TypeSig.renderAll types) m.returnType
        isGenericDefinition := false
        hasGenericArguments := true
        containsGenericParameters := m'.containsGenericParameters
        token := Metadata.Token.make .methodSpec rid } ∧
      (m'.containsGenericParameters = true ↔
        ∃ text ∈ m'.parameterTypes ++ m'.returnType :: TypeSig.renderAll types, '!' ∈ text.toList) := by
  rw [methodSpec] at h
  obtain ⟨row, hrow, h⟩ := exists_of_bind_eq_ok h
  obtain ⟨⟨table, target⟩, htarget, h⟩ := exists_of_bind_eq_ok h
  dsimp only at h
  split at h
  · next hdefinition =>
    obtain ⟨m, hm, h⟩ := exists_of_bind_eq_ok h
    obtain ⟨types, htypes, h⟩ := exists_of_bind_eq_ok h
    cases h
    exact ⟨row, table, target, m, types, hrow, htarget, .inl ⟨hdefinition, hm⟩, eq_ok_of_signatureResult htypes, rfl,
      any_mentionsVariable_iff _⟩
  · next hother =>
    have htable : table = .memberRef := by
      simpa [Metadata.CodedIndex.tables, hother] using mem_tables_of_decodeIndex htarget
    obtain ⟨found, hfound, h⟩ := exists_of_bind_eq_ok h
    cases found with
    | inr field => contradiction
    | inl m =>
      obtain ⟨_, hm, h⟩ := exists_of_bind_eq_ok h
      cases hm
      obtain ⟨types, htypes, h⟩ := exists_of_bind_eq_ok h
      cases h
      exact ⟨row, table, target, m, types, hrow, htarget, .inr ⟨htable, hfound⟩, eq_ok_of_signatureResult htypes, rfl,
        any_mentionsVariable_iff _⟩

private theorem mem_renderAll {text : String} {ts : List (TypeSig String)} :
    text ∈ TypeSig.renderAll ts ↔ ∃ t ∈ ts, t.render = text := by
  rw [TypeSig.renderAll_eq, List.mem_map]

theorem types_of_isMethod {table : Table} {target : Nat} {m : Method} (h : a.IsMethod table target m) :
    (a.signatureTypes table target = [] ∧ m.parameterTypes = [] ∧ m.returnType = "?") ∨
      ∃ result parameters, a.signatureTypes table target = result :: parameters ∧
        m.parameterTypes = TypeSig.renderAll parameters ∧ m.returnType = result.render := by
  rcases h with ⟨rfl, hm⟩ | ⟨rfl, hm⟩
  · obtain ⟨row, hdescribed⟩ := describedBy_of_methodDef hm
    rw [signatureTypes, hdescribed.found]
    cases hsig : a.methodSig (a.metadata.blob (row.column "Signature")) with
    | error e =>
      obtain ⟨hparameters, hresult, -⟩ := hdescribed.unreadable e hsig
      exact .inl ⟨by simp only [hsig], hparameters, hresult⟩
    | ok sig =>
      obtain ⟨hparameters, hresult, -⟩ := hdescribed.readable sig hsig
      exact .inr ⟨sig.result, sig.parameters, by simp only [hsig], hparameters, hresult⟩
  · obtain ⟨row, _, _, sig, hreferenced⟩ := referencedBy_of_memberRef hm
    refine .inr ⟨sig.result, sig.parameters, ?_, hreferenced.parameterTypes, hreferenced.returnType⟩
    rw [signatureTypes, hreferenced.found]
    simp only [hreferenced.signature]

/-- The names of the types of a method specification are those of the types in the signature of its generic method,
with the type arguments in them. -/
theorem exists_mem_instantiated_iff {table : Table} {target : Nat} {m : Method} (hm : a.IsMethod table target m)
    (types : List (TypeSig String)) :
    (∃ text ∈ m.parameterTypes.map (TypeName.substitute (TypeSig.renderAll types)) ++
        TypeName.substitute (TypeSig.renderAll types) m.returnType :: TypeSig.renderAll types, '!' ∈ text.toList) ↔
      ∃ t ∈ (a.signatureTypes table target).map (TypeSig.instantiate types) ++ types, '!' ∈ t.render.toList := by
  rcases types_of_isMethod hm with ⟨htypes, hparameters, hresult⟩ | ⟨result, parameters, htypes, hparameters, hresult⟩
  · have hunknown : TypeName.substitute (TypeSig.renderAll types) "?" = "?" :=
      TypeName.substitute_of_notMem (by decide)
    rw [hparameters, hresult, htypes, hunknown]
    simp [mem_renderAll]
  · have hparameter : parameters.map (TypeName.substitute (TypeSig.renderAll types) ∘ TypeSig.render) =
        parameters.map (TypeSig.render ∘ TypeSig.instantiate types) :=
      List.map_congr_left fun t _ => Signature.substitute_render types t
    rw [hparameters, hresult, htypes, TypeSig.renderAll_eq parameters, List.map_map, hparameter,
      Signature.substitute_render]
    simp only [List.mem_append, List.mem_cons, List.mem_map, mem_renderAll, List.map_cons, or_and_right, exists_or,
      exists_eq_left, exists_exists_and_eq_and, Function.comp_apply, or_assoc]
    exact or_left_comm

/-- A method specification is its generic method with type arguments put into the types.  It depends on type parameters
if and only if one is left in these types or in the arguments, or a name that they show has a `!`. -/
theorem methodSpec_flags (h : a.methodSpec rid = .ok m') :
    ∃ row table target m types,
      a.metadata.row .methodSpec rid = .ok row ∧
      Metadata.decodeIndex .methodDefOrRef (row.column "Method") = .ok (table, target) ∧ a.IsMethod table target m ∧
      Signature.readInstantiation a.resolver (a.metadata.blob (row.column "Instantiation")) = .ok types ∧
      m' = { m with
        parameterTypes := m.parameterTypes.map (TypeName.substitute (TypeSig.renderAll types))
        returnType := TypeName.substitute (TypeSig.renderAll types) m.returnType
        isGenericDefinition := false
        hasGenericArguments := true
        containsGenericParameters := m'.containsGenericParameters
        token := Metadata.Token.make .methodSpec rid } ∧
      (m'.containsGenericParameters = true ↔
        ∃ t ∈ (a.signatureTypes table target).map (TypeSig.instantiate types) ++ types,
          t.has .typeParameter = true ∨ ∃ name ∈ t.displayed, '!' ∈ name.toList) := by
  obtain ⟨row, table, target, m, types, hrow, htarget, hm, htypes, heq, hflag⟩ := methodSpec_eq h
  refine ⟨row, table, target, m, types, hrow, htarget, hm, htypes, heq, hflag.trans ?_⟩
  have hparameters := congrArg Method.parameterTypes heq
  have hresult := congrArg Method.returnType heq
  dsimp only at hparameters hresult
  rw [hparameters, hresult, exists_mem_instantiated_iff hm types]
  exact exists_congr fun t => and_congr_right fun _ => TypeSig.mem_render_iff .typeParameter t

/-- Metadata of a type `Box` with a type parameter and a generic method `Wrap`, which is also referred to as a method of
the open type, and both with a type argument. -/
private def boxWrap : Buffer :=
  ([
    0x42, 0x53, 0x4A, 0x42, 1, 0, 1, 0, 0, 0, 0, 0, 4, 0, 0, 0, 0x76, 0x34, 0, 0, 0, 0, 3, 0, 0x48, 0, 0, 0, 0x6C, 0,
    0, 0, 0x23, 0x7E, 0, 0, 0xB4, 0, 0, 0, 0x10, 0, 0, 0, 0x23, 0x53, 0x74, 0x72, 0x69, 0x6E, 0x67, 0x73, 0, 0, 0, 0,
    0xC4, 0, 0, 0, 0x14, 0, 0, 0, 0x23, 0x42, 0x6C, 0x6F, 0x62, 0, 0, 0, 0, 0, 0, 0, 2, 0, 0, 1, 0x44, 4, 0, 8, 0,
    0x0C, 0, 0, 0, 0, 0, 0, 0, 0, 0, 0, 1, 0, 0, 0, 1, 0, 0, 0, 1, 0, 0, 0, 1, 0, 0, 0, 2, 0, 0, 0, 2, 0, 0, 0, 0, 0,
    0, 0, 1, 0, 0, 0, 0, 0, 1, 0, 1, 0, 0, 0, 0, 0, 0, 0, 0x10, 0, 5, 0, 1, 0, 1, 0, 0x0C, 0, 5, 0, 1, 0, 8, 0, 0, 0,
    0, 0, 2, 0, 0x0A, 0, 0, 0, 0, 0, 3, 0, 0x0C, 0, 2, 0, 0x0F, 0, 3, 0, 0x0F, 0, 0, 0x42, 0x6F, 0x78, 0, 0x57, 0x72,
    0x61, 0x70, 0, 0x54, 0, 0x55, 0, 0, 0, 0, 6, 0x10, 1, 1, 1, 0x1E, 0, 6, 0x15, 0x12, 4, 1, 0x13, 0, 3, 0x0A, 1, 8,
    0] : Bytes).toArray

private def seemsClosed (rid : Nat) (metadata : Metadata) : Bool :=
  ((ofMetadata metadata).methodSpec rid).toOption.any fun m => !m.containsGenericParameters

/-- With closed arguments a method of an open type seems closed. -/
theorem methodSpec_flags_box : ∃ metadata row m, Metadata.read boxWrap = .ok metadata ∧
    metadata.row .methodSpec 1 = .ok row ∧
    Metadata.decodeIndex .methodDefOrRef (row.column "Method") = .ok (.methodDef, 1) ∧
    (ofMetadata metadata).methodOwners.owner? 1 = some 1 ∧ (ofMetadata metadata).isGeneric .typeDef 1 = true ∧
    (ofMetadata metadata).methodSpec 1 = .ok m ∧ m.containsGenericParameters = false := by
  have hcheck : (Metadata.read boxWrap).toOption.any (fun metadata =>
      (metadata.row .methodSpec 1).toOption.any (fun row =>
        (Metadata.decodeIndex .methodDefOrRef (row.column "Method")).toOption == some (.methodDef, 1)) &&
      ((ofMetadata metadata).methodOwners.owner? 1 == some 1 && (ofMetadata metadata).isGeneric .typeDef 1) &&
      seemsClosed 1 metadata) = true := by
    decide +kernel
  obtain ⟨metadata, hread, hmetadata⟩ := exists_of_toOption_any hcheck
  simp only [Bool.and_eq_true] at hmetadata
  obtain ⟨⟨hrow, howner, hgeneric⟩, hclosed⟩ := hmetadata
  obtain ⟨row, hrow, htarget⟩ := exists_of_toOption_any hrow
  obtain ⟨m, hm, hflag⟩ := exists_of_toOption_any hclosed
  exact ⟨metadata, row, m, hread, hrow, eq_ok_of_toOption (eq_of_beq htarget), eq_of_beq howner, hgeneric, hm,
    by simpa using hflag⟩

/-- Whether `int` is the only type. -/
private def areInt : List (TypeSig String) → Bool
  | [.primitive .int32] => true
  | _ => false

/-- Whether the types are those of a method that takes a value of its own type parameter and returns nothing. -/
private def areVoidOfVar : List (TypeSig String) → Bool
  | [.primitive .void, .methodVar 0] => true
  | _ => false

private theorem eq_of_areInt {ts : List (TypeSig String)} (h : areInt ts = true) : ts = [.primitive .int32] := by
  unfold areInt at h
  split at h
  · rfl
  · contradiction

private theorem eq_of_areVoidOfVar {ts : List (TypeSig String)} (h : areVoidOfVar ts = true) :
    ts = [.primitive .void, .methodVar 0] := by
  unfold areVoidOfVar at h
  split at h
  · rfl
  · contradiction

theorem methodSpec_flags_wrap : ∃ metadata row m, Metadata.read boxWrap = .ok metadata ∧
    metadata.row .methodSpec 2 = .ok row ∧
    Metadata.decodeIndex .methodDefOrRef (row.column "Method") = .ok (.memberRef, 1) ∧
    Signature.readInstantiation (ofMetadata metadata).resolver (metadata.blob (row.column "Instantiation")) =
      .ok [.primitive .int32] ∧
    (ofMetadata metadata).signatureTypes .memberRef 1 = [.primitive .void, .methodVar 0] ∧
    (ofMetadata metadata).methodSpec 2 = .ok m ∧ m.containsGenericParameters = false ∧
    ∀ t ∈ ((ofMetadata metadata).signatureTypes .memberRef 1).map (TypeSig.instantiate [.primitive .int32]) ++
      [.primitive .int32], t.has .typeParameter = false := by
  have hcheck : (Metadata.read boxWrap).toOption.any (fun metadata =>
      (metadata.row .methodSpec 2).toOption.any (fun row =>
        (Metadata.decodeIndex .methodDefOrRef (row.column "Method")).toOption == some (.memberRef, 1) &&
        (Signature.readInstantiation (ofMetadata metadata).resolver
          (metadata.blob (row.column "Instantiation"))).toOption.any areInt) &&
      areVoidOfVar ((ofMetadata metadata).signatureTypes .memberRef 1) && seemsClosed 2 metadata) = true := by
    decide +kernel
  obtain ⟨metadata, hread, hmetadata⟩ := exists_of_toOption_any hcheck
  simp only [Bool.and_eq_true] at hmetadata
  obtain ⟨⟨hrow, hsig⟩, hclosed⟩ := hmetadata
  obtain ⟨row, hrow, hcolumns⟩ := exists_of_toOption_any hrow
  simp only [Bool.and_eq_true] at hcolumns
  have htarget := eq_ok_of_toOption (eq_of_beq hcolumns.1)
  obtain ⟨types, htypes, hint⟩ := exists_of_toOption_any hcolumns.2
  obtain rfl := eq_of_areInt hint
  obtain ⟨m, hm, hflag⟩ := exists_of_toOption_any hclosed
  have hnone : m.containsGenericParameters = false := by simpa using hflag
  -- The row, the method and the arguments that the theorem speaks of are the ones found.
  obtain ⟨row', table, target, generic, types, hrow', htarget', -, htypes', -, hopen⟩ := methodSpec_flags hm
  obtain rfl : row = row' := Except.ok.inj (hrow.symm.trans hrow')
  obtain ⟨rfl, rfl⟩ := Prod.mk.inj (Except.ok.inj (htarget.symm.trans htarget'))
  obtain rfl := Except.ok.inj (htypes.symm.trans htypes')
  refine ⟨metadata, row, m, hread, hrow, htarget, htypes, eq_of_areVoidOfVar hsig, hm, hnone, fun t ht => ?_⟩
  exact Bool.eq_false_iff.2 fun hhas => Bool.false_ne_true (hnone.symm.trans (hopen.2 ⟨t, ht, .inl hhas⟩))

end CilProbe.Assembly
