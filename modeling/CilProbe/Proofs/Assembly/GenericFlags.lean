import CilProbe.Proofs.Assembly.Methods
import CilProbe.Proofs.Signature.Marks
import CilProbe.Proofs.Signature.Rows
import Mathlib.Logic.Relation

/-!
# Generic types of member references

Whether a referenced method has generic arguments or depends on type parameters is found by looking for characters in
the names of types.  So two things count: the elements of signatures (`Involves`), and how types are spelled (`Spells`).
Types are spelled by the names of definitions and references, and what belongs to a module by the name `<Module>`.

* The characters of a name: `mem_typeName_iff`.
* The flags of a member reference: `memberRef_flags`.
-/

namespace CilProbe.Assembly

open Metadata (Table LookupError)
open Signature (TypeSig MethodSig TypeRow Mark)

/-! ### What names show -/

/-- The signature of a type specification. -/
def specification (a : Assembly) (rid : Nat) : Except LookupError (TypeSig TypeRow) := do
  let row ← a.metadata.row .typeSpec rid
  let (type, _) ← signatureResult
    (Signature.readType Signature.itself (.at (a.metadata.blob (row.column "Signature")) 0))
  return type

/-- The signature of a method with the rows to which it refers. -/
def methodRows (blob : Bytes) : Except LookupError (MethodSig TypeRow) := do
  let (sig, _) ← signatureResult (Signature.readMethod Signature.itself (.at blob 0))
  return sig

/-- The name of a type specification shows another row. -/
def Shows (a : Assembly) (row row' : TypeRow) : Prop :=
  row.table = .typeSpec ∧ ∃ t, a.specification row.rid = .ok t ∧ row' ∈ t.displayed

/-- There is such an element in the signature of the row, or in one that is shown there. -/
def Involves (a : Assembly) (mark : Mark) (row : TypeRow) : Prop :=
  ∃ rid t, Relation.ReflTransGen a.Shows row ⟨.typeSpec, rid⟩ ∧ a.specification rid = .ok t ∧ t.has mark = true

/-- The row is the definition or reference of a type with the character of the mark in its name, or shows one. -/
def Spells (a : Assembly) (mark : Mark) (row : TypeRow) : Prop :=
  ∃ row' name, Relation.ReflTransGen a.Shows row row' ∧ row'.table ≠ .typeSpec ∧
    a.typeName row'.table row'.rid = .ok name ∧ mark.char ∈ name.toList

/-- There is such an element in the type, or in a signature that it shows. -/
def TypeInvolves (a : Assembly) (mark : Mark) (t : TypeSig TypeRow) : Prop :=
  t.has mark = true ∨ ∃ row ∈ t.displayed, a.Involves mark row

def TypeSpells (a : Assembly) (mark : Mark) (t : TypeSig TypeRow) : Prop := ∃ row ∈ t.displayed, a.Spells mark row

variable {a : Assembly} {mark : Mark}

section

variable {table : Table} {rid : Nat}

private theorem not_shows (h : table ≠ .typeSpec) (row : TypeRow) : ¬a.Shows ⟨table, rid⟩ row :=
  fun hshows => h hshows.1

theorem not_involves (h : table ≠ .typeSpec) : ¬a.Involves mark ⟨table, rid⟩ := by
  rintro ⟨spec, t, hreach, -⟩
  rcases hreach.cases_head with heq | ⟨row, hshows, -⟩
  · exact h (congrArg TypeRow.table heq)
  · exact not_shows h row hshows

theorem spells_iff_of_ne (h : table ≠ .typeSpec) :
    a.Spells mark ⟨table, rid⟩ ↔ ∃ name, a.typeName table rid = .ok name ∧ mark.char ∈ name.toList := by
  constructor
  · rintro ⟨row, name, hreach, -, hname, hmem⟩
    rcases hreach.cases_head with rfl | ⟨row', hshows, -⟩
    · exact ⟨name, hname, hmem⟩
    · exact absurd hshows (not_shows h row')
  · rintro ⟨name, hname, hmem⟩
    exact ⟨_, name, .refl, h, hname, hmem⟩

variable {t : TypeSig TypeRow} (h : a.specification rid = .ok t)
include h

theorem shows_typeSpec_iff {row : TypeRow} : a.Shows ⟨.typeSpec, rid⟩ row ↔ row ∈ t.displayed := by
  constructor
  · rintro ⟨-, t', ht', hmem⟩
    obtain rfl : t = t' := Except.ok.inj (h.symm.trans ht')
    exact hmem
  · exact fun hmem => ⟨rfl, t, h, hmem⟩

theorem involves_typeSpec_iff : a.Involves mark ⟨.typeSpec, rid⟩ ↔ a.TypeInvolves mark t := by
  constructor
  · rintro ⟨spec, t', hreach, ht', hhas⟩
    rcases hreach.cases_head with heq | ⟨row, hshows, hreach⟩
    · obtain rfl : rid = spec := congrArg TypeRow.rid heq
      obtain rfl : t = t' := Except.ok.inj (h.symm.trans ht')
      exact .inl hhas
    · exact .inr ⟨row, (shows_typeSpec_iff h).1 hshows, spec, t', hreach, ht', hhas⟩
  · rintro (hhas | ⟨row, hrow, spec, t', hreach, ht', hhas⟩)
    · exact ⟨rid, t, .refl, h, hhas⟩
    · exact ⟨spec, t', hreach.head ((shows_typeSpec_iff h).2 hrow), ht', hhas⟩

theorem spells_typeSpec_iff : a.Spells mark ⟨.typeSpec, rid⟩ ↔ a.TypeSpells mark t := by
  constructor
  · rintro ⟨row', name, hreach, hne, hname, hmem⟩
    rcases hreach.cases_head with rfl | ⟨row, hshows, hreach⟩
    · exact absurd rfl hne
    · exact ⟨row, (shows_typeSpec_iff h).1 hshows, row', name, hreach, hne, hname, hmem⟩
  · rintro ⟨row, hrow, row', name, hreach, hne, hname, hmem⟩
    exact ⟨row', name, hreach.head ((shows_typeSpec_iff h).2 hrow), hne, hname, hmem⟩

end

/-! ### The characters of names -/

/-- The characters of a type that is shown with names, if the characters of the names are known. -/
private theorem mem_named_iff {resolve : Table → Nat → Except LookupError String} {t : TypeSig String}
    {t₀ : TypeSig TypeRow} (hnamed : Signature.Named resolve t t₀)
    (hresolve : ∀ table rid name, resolve table rid = .ok name →
      (mark.char ∈ name.toList ↔ a.Involves mark ⟨table, rid⟩ ∨ a.Spells mark ⟨table, rid⟩)) :
    mark.char ∈ t.render.toList ↔ a.TypeInvolves mark t₀ ∨ a.TypeSpells mark t₀ := by
  have hrow : ∀ row ∈ t₀.displayed, (mark.char ∈ (Signature.nameOf resolve row).toList ↔
      a.Involves mark row ∨ a.Spells mark row) := fun row hrow =>
    hresolve _ _ _ (hnamed.allNamed row (t₀.displayed_subset hrow))
  rw [TypeSig.mem_render_iff, ← hnamed.map, TypeSig.has_map, TypeSig.displayed_map, TypeInvolves, TypeSpells]
  simp only [List.mem_map, exists_exists_and_eq_and]
  constructor
  · rintro (hhas | ⟨row, hmem, hchar⟩)
    · exact .inl (.inl hhas)
    · exact ((hrow row hmem).1 hchar).imp (fun h => .inr ⟨row, hmem, h⟩) fun h => ⟨row, hmem, h⟩
  · rintro ((hhas | ⟨row, hmem, h⟩) | ⟨row, hmem, h⟩)
    · exact .inl hhas
    · exact .inr ⟨row, hmem, (hrow row hmem).2 (.inl h)⟩
    · exact .inr ⟨row, hmem, (hrow row hmem).2 (.inr h)⟩

/-- So it is with every name, by induction on the number of specifications that may be entered. -/
theorem mem_typeNameWithin_iff (specs : Nat) (pending : List Nat) {table : Table} {rid : Nat} {name : String}
    (h : a.typeNameWithin specs pending table (maxNesting + 1) rid = .ok name) :
    mark.char ∈ name.toList ↔ a.Involves mark ⟨table, rid⟩ ∨ a.Spells mark ⟨table, rid⟩ := by
  have hplain {table : Table} {rid : Nat} {name : String} (hne : table ≠ .typeSpec)
      (hname : a.typeName table rid = .ok name) :
      mark.char ∈ name.toList ↔ a.Involves mark ⟨table, rid⟩ ∨ a.Spells mark ⟨table, rid⟩ := by
    rw [or_iff_right (not_involves hne), spells_iff_of_ne hne, hname]
    simp
  induction specs generalizing pending table rid name with
  | zero =>
    unfold typeNameWithin at h
    rw [if_neg (by decide)] at h
    cases table with
    | typeDef => exact hplain (by decide) h
    | typeRef => exact hplain (by decide) h
    | _ => contradiction
  | succ specs ih =>
    unfold typeNameWithin at h
    rw [if_neg (by decide)] at h
    cases table with
    | typeDef => exact hplain (by decide) h
    | typeRef => exact hplain (by decide) h
    | typeSpec =>
      dsimp only at h
      split at h
      · contradiction
      obtain ⟨row, hrow, h⟩ := exists_of_bind_eq_ok h
      obtain ⟨⟨t, c⟩, ht, h⟩ := exists_of_bind_eq_ok h
      cases h
      obtain ⟨t₀, hread, hnamed⟩ := Signature.readType_rows (δ := LookupError) (eq_ok_of_signatureResult ht)
      have hspec : a.specification rid = .ok t₀ := by
        rw [specification, hrow]
        simp only [bind, Except.bind, hread]
        rfl
      rw [involves_typeSpec_iff hspec, spells_typeSpec_iff hspec]
      exact mem_named_iff hnamed fun table inner name hname => ih (rid :: pending) hname
    | _ => contradiction

theorem mem_typeName_iff {table : Table} {rid : Nat} {name : String} (h : a.typeName table rid = .ok name) :
    mark.char ∈ name.toList ↔ a.Involves mark ⟨table, rid⟩ ∨ a.Spells mark ⟨table, rid⟩ :=
  mem_typeNameWithin_iff _ [] h

theorem methodRows_of_methodSig {blob : Bytes} {sig : MethodSig String} (h : a.methodSig blob = .ok sig) :
    ∃ sig₀, methodRows blob = .ok sig₀ ∧ Signature.NamedMethod a.resolver sig sig₀ := by
  rw [methodSig] at h
  obtain ⟨⟨sig, c⟩, hsig, h⟩ := exists_of_bind_eq_ok h
  cases h
  obtain ⟨sig₀, hread, hnamed⟩ := Signature.readMethod_rows (δ := LookupError) (eq_ok_of_signatureResult hsig)
  refine ⟨sig₀, ?_, hnamed⟩
  simp only [methodRows, bind, Except.bind, hread]
  rfl

/-! ### Member references -/

/-- The type or module of a member reference has a name with the character of the mark, by spelling alone. -/
def OwnerSpells (a : Assembly) (mark : Mark) : Table → Nat → Prop
  | .methodDef, rid =>
    match a.methodOwners.owner? rid with
    | some owner => a.Spells mark ⟨.typeDef, owner⟩
    | none => mark.char ∈ TypeName.moduleType.toList
  | .moduleRef, _ => mark.char ∈ TypeName.moduleType.toList
  | table, rid => a.Spells mark ⟨table, rid⟩

theorem mem_declaringType_iff (mark : Mark) {table : Table} {rid : Nat} {declaringType assembly : String}
    (h : a.memberParent table rid = .ok (declaringType, assembly)) :
    mark.char ∈ declaringType.toList ↔ a.Involves mark ⟨table, rid⟩ ∨ a.OwnerSpells mark table rid := by
  have htype (hparent : a.memberParent table rid = (do return (← a.typeName table rid, ← a.typeAssembly table rid)))
      (howner : a.OwnerSpells mark table rid = a.Spells mark ⟨table, rid⟩) :
      mark.char ∈ declaringType.toList ↔ a.Involves mark ⟨table, rid⟩ ∨ a.OwnerSpells mark table rid := by
    rw [hparent] at h
    obtain ⟨name, hname, h⟩ := exists_of_bind_eq_ok h
    obtain ⟨_, -, h⟩ := exists_of_bind_eq_ok h
    cases h
    rw [howner]
    exact mem_typeName_iff hname
  cases table with
  | methodDef =>
    rw [or_iff_right (not_involves (by decide))]
    obtain ⟨m, hm, h⟩ := exists_of_bind_eq_ok h
    cases h
    obtain ⟨row, hdescribed⟩ := describedBy_of_methodDef hm
    have howner := hdescribed.declaringType
    rw [OwnerSpells]
    cases hrid : a.methodOwners.owner? rid with
    | none =>
      rw [hrid] at howner
      rw [← Except.ok.inj howner]
    | some owner =>
      rw [hrid] at howner
      rw [mem_typeName_iff howner, or_iff_right (not_involves (by decide))]
  | moduleRef =>
    rw [or_iff_right (not_involves (by decide))]
    obtain ⟨row, -, h⟩ := exists_of_bind_eq_ok h
    cases h
    exact Iff.rfl
  | _ => exact htype rfl rfl

/-- The characters of the types of a signature that is shown with names. -/
theorem exists_mem_types_iff (mark : Mark) {sig : MethodSig String} {sig₀ : MethodSig TypeRow}
    (h : Signature.NamedMethod a.resolver sig sig₀) :
    (∃ text ∈ TypeSig.renderAll sig.parameters ++ [sig.result.render], mark.char ∈ text.toList) ↔
      (∃ t ∈ sig₀.result :: sig₀.parameters, a.TypeInvolves mark t) ∨
        ∃ t ∈ sig₀.result :: sig₀.parameters, a.TypeSpells mark t := by
  obtain ⟨rfl, hnamed⟩ := h
  have htype : ∀ t ∈ sig₀.result :: sig₀.parameters,
      (mark.char ∈ (t.map (Signature.nameOf a.resolver)).render.toList ↔
        a.TypeInvolves mark t ∨ a.TypeSpells mark t) := by
    intro t ht
    refine mem_named_iff ⟨rfl, fun row hrow => hnamed row ?_⟩ fun _ _ _ => mem_typeName_iff
    rw [MethodSig.references, List.mem_append, TypeSig.mem_allReferences]
    rcases List.mem_cons.1 ht with rfl | ht
    · exact .inl hrow
    · exact .inr ⟨t, ht, hrow⟩
  have htexts : (∃ text ∈ TypeSig.renderAll (sig₀.map (Signature.nameOf a.resolver)).parameters ++
        [(sig₀.map (Signature.nameOf a.resolver)).result.render], mark.char ∈ text.toList) ↔
      ∃ t ∈ sig₀.result :: sig₀.parameters, mark.char ∈ (t.map (Signature.nameOf a.resolver)).render.toList := by
    simp only [MethodSig.map, TypeSig.renderAll_eq, TypeSig.mapAll_eq, List.map_map, List.mem_append,
      List.mem_singleton, List.mem_map, or_and_right, exists_or, exists_eq_left, exists_exists_and_eq_and,
      List.exists_mem_cons_iff, Function.comp_apply]
    exact or_comm
  rw [htexts, ← exists_or]
  refine exists_congr fun t => ?_
  rw [← and_or_left]
  exact and_congr_right fun ht => htype t ht

/-- A referenced method has generic arguments if there is a generic instance in the specification of its type, and it
depends on type parameters if there is one in that specification or in its own signature; and both also because of how
types are spelled. -/
theorem memberRef_flags {rid : Nat} {m : Method} (h : a.memberRef rid = .ok (.inl m)) :
    ∃ row table parent sig,
      a.metadata.row .memberRef rid = .ok row ∧
      Metadata.decodeIndex .memberRefParent (row.column "Class") = .ok (table, parent) ∧
      methodRows (a.metadata.blob (row.column "Signature")) = .ok sig ∧
      (m.hasGenericArguments = true ↔
        (table = .typeSpec ∧ a.Involves .genericInstance ⟨table, parent⟩) ∨
          a.OwnerSpells .genericInstance table parent) ∧
      (m.containsGenericParameters = true ↔
        (∃ t ∈ sig.result :: sig.parameters, a.TypeInvolves .typeParameter t) ∨
          (table = .typeSpec ∧ a.Involves .typeParameter ⟨table, parent⟩) ∨
          (∃ t ∈ sig.result :: sig.parameters, a.TypeSpells .typeParameter t) ∨
          a.OwnerSpells .typeParameter table parent) := by
  obtain ⟨row, table, parent, sig, hreferenced⟩ := referencedBy_of_memberRef h
  obtain ⟨sig₀, hsig₀, hnamed⟩ := methodRows_of_methodSig hreferenced.signature
  have hinvolves (mark : Mark) : a.Involves mark ⟨table, parent⟩ ↔
      table = .typeSpec ∧ a.Involves mark ⟨table, parent⟩ :=
    ⟨fun h => ⟨by_contra fun hne => not_involves hne h, h⟩, And.right⟩
  refine ⟨row, table, parent, sig₀, hreferenced.found, hreferenced.target, hsig₀, ?_, ?_⟩
  · rw [hreferenced.hasGenericArguments, ← hinvolves]
    exact mem_declaringType_iff .genericInstance hreferenced.owner
  · have htypes := exists_mem_types_iff .typeParameter hnamed
    have howner := mem_declaringType_iff .typeParameter hreferenced.owner
    rw [← hreferenced.parameterTypes, ← hreferenced.returnType] at htypes
    rw [hreferenced.containsGenericParameters, ← hinvolves]
    exact (or_congr htypes howner).trans (or_or_or_comm.trans or_assoc)

/-- Metadata with a function `beep` of a module, a method `Add` of a list of numbers, and this type. -/
private def beepAndAdd : Buffer :=
  ([
    0x42, 0x53, 0x4A, 0x42, 1, 0, 1, 0, 0, 0, 0, 0, 4, 0, 0, 0, 0x76, 0x34, 0, 0, 0, 0, 3, 0, 0x48, 0, 0, 0, 0x40, 0,
    0, 0, 0x23, 0x7E, 0, 0, 0x88, 0, 0, 0, 0x18, 0, 0, 0, 0x23, 0x53, 0x74, 0x72, 0x69, 0x6E, 0x67, 0x73, 0, 0, 0, 0,
    0xA0, 0, 0, 0, 0x14, 0, 0, 0, 0x23, 0x42, 0x6C, 0x6F, 0x62, 0, 0, 0, 0, 0, 0, 0, 2, 0, 0, 1, 2, 4, 0, 0x0C, 0, 0,
    0, 0, 0, 0, 0, 0, 0, 0, 0, 0, 1, 0, 0, 0, 2, 0, 0, 0, 1, 0, 0, 0, 1, 0, 0, 0, 0, 0, 1, 0, 0, 0, 0x0A, 0, 6, 0, 1,
    0, 0x0C, 0, 0x0B, 0, 5, 0, 0x0F, 0, 0x0B, 0, 0, 0, 0, 0x4C, 0x69, 0x73, 0x74, 0, 0x62, 0x65, 0x65, 0x70, 0, 0x41,
    0x64, 0x64, 0, 0x6B, 0x65, 0x72, 0x6E, 0x65, 0x6C, 0x33, 0x32, 0, 0, 3, 0, 0, 1, 5, 0x20, 1, 1, 0x13, 0, 5, 0x15,
    0x12, 5, 1, 8, 0, 0, 0] : Bytes).toArray

private def hasFlags (rid : Nat) (parent : Table × Nat) (metadata : Metadata) : Bool :=
  ((metadata.row .memberRef rid).toOption.any fun row =>
    (Metadata.decodeIndex .memberRefParent (row.column "Class")).toOption == some parent) &&
  ((ofMetadata metadata).memberRef rid).toOption.any fun
    | .inl m => m.hasGenericArguments
    | .inr _ => false

private theorem exists_of_hasFlags {rid : Nat} {parent : Table × Nat} {metadata : Metadata}
    (h : hasFlags rid parent metadata = true) :
    ∃ row m, metadata.row .memberRef rid = .ok row ∧
      Metadata.decodeIndex .memberRefParent (row.column "Class") = .ok parent ∧
      (ofMetadata metadata).memberRef rid = .ok (.inl m) ∧ m.hasGenericArguments = true := by
  rw [hasFlags, Bool.and_eq_true] at h
  obtain ⟨row, hrow, hparent⟩ := exists_of_toOption_any h.1
  obtain ⟨m | field, hm, hflag⟩ := exists_of_toOption_any h.2
  · exact ⟨row, m, hrow, eq_ok_of_toOption (eq_of_beq hparent), hm, hflag⟩
  · contradiction

/-- A function of a module has generic arguments, although it belongs to no specification of a type. -/
theorem memberRef_flags_module : ∃ metadata row m, Metadata.read beepAndAdd = .ok metadata ∧
    metadata.row .memberRef 1 = .ok row ∧
    Metadata.decodeIndex .memberRefParent (row.column "Class") = .ok (.moduleRef, 1) ∧
    (ofMetadata metadata).memberRef 1 = .ok (.inl m) ∧ m.hasGenericArguments = true := by
  have hcheck : (Metadata.read beepAndAdd).toOption.any (hasFlags 1 (.moduleRef, 1)) = true := by decide +kernel
  obtain ⟨metadata, hread, hflags⟩ := exists_of_toOption_any hcheck
  obtain ⟨row, m, hm⟩ := exists_of_hasFlags hflags
  exact ⟨metadata, row, m, hread, hm⟩

theorem memberRef_flags_add : ∃ metadata m, Metadata.read beepAndAdd = .ok metadata ∧
    (ofMetadata metadata).memberRef 2 = .ok (.inl m) ∧ m.hasGenericArguments = true ∧
    (((ofMetadata metadata).Involves .genericInstance ⟨.typeSpec, 1⟩) ∨
      (ofMetadata metadata).OwnerSpells .genericInstance .typeSpec 1) := by
  have hcheck : (Metadata.read beepAndAdd).toOption.any (hasFlags 2 (.typeSpec, 1)) = true := by decide +kernel
  obtain ⟨metadata, hread, hflags⟩ := exists_of_toOption_any hcheck
  obtain ⟨row, m, hrow, hparent, hm, hflag⟩ := exists_of_hasFlags hflags
  obtain ⟨row', table, parent, sig, hrow', hparent', -, harguments, -⟩ := memberRef_flags hm
  obtain rfl := Except.ok.inj (hrow.symm.trans hrow')
  obtain ⟨rfl, rfl⟩ := Prod.mk.inj (Except.ok.inj (hparent.symm.trans hparent'))
  exact ⟨metadata, m, hread, hm, hflag, (harguments.1 hflag).imp And.right id⟩

end CilProbe.Assembly
