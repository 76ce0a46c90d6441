import CilProbe.Proofs.Assembly.Failure
import CilProbe.Proofs.Metadata.Acceptance

/-!
# The methods that are listed

A row of a method definition is listed if its type has a name and its parameters can be looked up
(`Assembly.methods_described`); whatever else is wrong with the row only shows in its method.  Parameters cannot be
looked up if their list begins with row zero, which is no row (`Assembly.exists_parameterNames_iff`).  Then the method is
missing from the list, although it has a name and a type (`Assembly.methods_hidden`).
-/

namespace CilProbe.Assembly

open Metadata (Table LookupError)
open Signature (TypeSig MethodSig)

/-! ### Tokens of methods -/

theorem token_make {table : Table} (htable : table ∈ Metadata.Token.tables) {rid : Nat} (h : rid < 2 ^ 24) :
    Metadata.Token.table? (Metadata.Token.make table rid) = some table ∧
      Metadata.Token.rid (Metadata.Token.make table rid) = rid := by
  have hmake : Metadata.Token.make table rid = table.index * 2 ^ 24 + rid := by
    rw [Metadata.Token.make, ← Nat.shiftLeft_add_eq_or_of_lt h, Nat.shiftLeft_eq]
  have hbyte : table.index < 2 ^ 8 := by cases table <;> decide
  have hindex : ((Metadata.Token.make table rid : Nat) : Int) / 2 ^ 24 % 2 ^ 8 = table.index := by omega
  have hfind : ∀ table ∈ Metadata.Token.tables,
      Metadata.Token.tables.find? (fun t => (t.index : Int) == table.index) = some table := by decide
  constructor
  · rw [Metadata.Token.table?, hindex, hfind table htable]
  · rw [Metadata.Token.rid]
    omega

theorem token_methodDef {rid : Nat} (h : rid < 2 ^ 24) :
    Metadata.Token.table? (Metadata.Token.make .methodDef rid) = some .methodDef ∧
      Metadata.Token.rid (Metadata.Token.make .methodDef rid) = rid :=
  token_make (by decide) h

/-! ### Rows that are listed -/

/-- Whether the type that a method belongs to has a name.  Methods without a type belong to one with a fixed name. -/
def hasNamedOwner (a : Assembly) (rid : Nat) : Bool := (a.ownerName (a.methodOwners.owner? rid)).toOption.isSome

/-- Where the parameters of a method begin. -/
def parameterList? (a : Assembly) (rid : Nat) : Option Nat :=
  (a.metadata.row .methodDef rid).toOption.map (·.column "ParamList")

/-- Whether a method has parameters of which the first one would stand in row zero. -/
def startsAtRowZero (a : Assembly) (rid : Nat) : Bool :=
  a.parameterList? rid == some 0 && a.parameterList? (rid + 1) != some 0

/-- The method is what its row says, as far as that can be read. -/
structure DescribedBy (a : Assembly) (rid : Nat) (row : Metadata.Row) (m : Method) : Prop where
  found : a.metadata.row .methodDef rid = .ok row
  declaringType : a.ownerName (a.methodOwners.owner? rid) = .ok m.declaringType
  name : m.name = a.metadata.string (row.column "Name")
  readable : ∀ sig, a.methodSig (a.metadata.blob (row.column "Signature")) = .ok sig →
    m.parameterTypes = TypeSig.renderAll sig.parameters ∧ m.returnType = sig.result.render ∧
      (m.isGenericDefinition ↔ 0 < sig.genericParameters ∨ a.isGeneric .methodDef rid)
  unreadable : ∀ e, a.methodSig (a.metadata.blob (row.column "Signature")) = .error e →
    m.parameterTypes = [] ∧ m.returnType = "?" ∧ (m.isGenericDefinition ↔ a.isGeneric .methodDef rid)
  containsGenericParameters : m.containsGenericParameters ↔ m.isGenericDefinition ∨
    (∃ owner, a.methodOwners.owner? rid = some owner ∧ a.isGeneric .typeDef owner) ∨
    ∃ type ∈ m.parameterTypes ++ [m.returnType], TypeName.mentionsVariable type
  isStatic : m.isStatic ↔ row.column "Flags" &&& Method.staticFlag ≠ 0
  hasGenericArguments : m.hasGenericArguments = false
  assembly : m.assembly = a.name
  token : m.token = Metadata.Token.make .methodDef rid
  rva : m.rva = row.column "RVA"
  flags : m.flags = row.column "Flags"
  parameterNames : a.parameterNames rid (row.column "ParamList") = .ok m.parameterNames

private theorem tolerate_eq_ok {α : Type} {x : Except LookupError α} {fallback y : α}
    (h : LookupError.tolerate fallback x = .ok y) : x = .ok y ∨ ∃ e, x = .error e ∧ y = fallback := by
  cases x with
  | ok x => exact .inl h
  | error e =>
    rw [LookupError.tolerate] at h
    split at h
    · cases h
      exact .inr ⟨e, rfl, rfl⟩
    · contradiction

theorem describedBy_of_methodDef {a : Assembly} {rid : Nat} {m : Method} (h : a.methodDef rid = .ok m) :
    ∃ row, a.DescribedBy rid row m := by
  rw [methodDef] at h
  obtain ⟨row, hrow, h⟩ := exists_of_bind_eq_ok h
  obtain ⟨declaringType, howner, h⟩ := exists_of_bind_eq_ok h
  obtain ⟨types, htypes, h⟩ := exists_of_bind_eq_ok h
  obtain ⟨names, hnames, h⟩ := exists_of_bind_eq_ok h
  cases h
  refine ⟨row, {
    found := hrow
    declaringType := howner
    name := rfl
    readable := ?readable
    unreadable := ?unreadable
    containsGenericParameters := ?contains
    isStatic := by simp
    hasGenericArguments := rfl
    assembly := rfl
    token := rfl
    rva := rfl
    flags := rfl
    parameterNames := hnames }⟩
  case readable =>
    intro sig hsig
    rw [hsig] at htypes
    cases htypes
    simp
  case unreadable =>
    intro e hsig
    rw [hsig] at htypes
    obtain rfl : types = ([], "?", 0) := by
      rcases tolerate_eq_ok htypes with hok | ⟨_, -, hfallback⟩
      · contradiction
      · exact hfallback
    simp
  case contains => simp [Option.any_eq_true, or_assoc]

/-- The method of a member reference is what its row says. -/
structure ReferencedBy (a : Assembly) (rid : Nat) (row : Metadata.Row) (table : Table) (parent : Nat)
    (sig : MethodSig String) (m : Method) : Prop where
  found : a.metadata.row .memberRef rid = .ok row
  target : Metadata.decodeIndex .memberRefParent (row.column "Class") = .ok (table, parent)
  owner : a.memberParent table parent = .ok (m.declaringType, m.assembly)
  signature : a.methodSig (a.metadata.blob (row.column "Signature")) = .ok sig
  parameterTypes : m.parameterTypes = TypeSig.renderAll sig.parameters
  returnType : m.returnType = sig.result.render
  hasGenericArguments : m.hasGenericArguments ↔ '<' ∈ m.declaringType.toList
  containsGenericParameters : m.containsGenericParameters ↔
    (∃ type ∈ m.parameterTypes ++ [m.returnType], '!' ∈ type.toList) ∨ '!' ∈ m.declaringType.toList

theorem referencedBy_of_memberRef {a : Assembly} {rid : Nat} {m : Method} (h : a.memberRef rid = .ok (.inl m)) :
    ∃ row table parent sig, a.ReferencedBy rid row table parent sig m := by
  rw [memberRef] at h
  obtain ⟨row, hrow, h⟩ := exists_of_bind_eq_ok h
  obtain ⟨⟨table, parent⟩, hparent, h⟩ := exists_of_bind_eq_ok h
  obtain ⟨⟨declaringType, assembly⟩, howner, h⟩ := exists_of_bind_eq_ok h
  dsimp only at h
  split at h
  · obtain ⟨type, -, h⟩ := exists_of_bind_eq_ok h
    cases h
  obtain ⟨sig, hsig, h⟩ := exists_of_bind_eq_ok h
  cases h
  refine ⟨row, table, parent, sig, {
    found := hrow
    target := hparent
    owner := howner
    signature := hsig
    parameterTypes := rfl
    returnType := rfl
    hasGenericArguments := List.contains_iff_mem
    containsGenericParameters := ?_ }⟩
  rw [List.append_cons, List.any_append, Bool.or_eq_true, List.any_eq_true]
  simp only [TypeName.mentionsVariable, List.contains_iff_mem, List.any_cons, List.any_nil, Bool.or_false]

private theorem exists_bind_pure_iff {α β ε : Type} (x : Except ε α) (f : α → β) :
    (∃ b, (x >>= fun a => pure (f a)) = .ok b) ↔ ∃ a, x = .ok a := by
  cases x with
  | ok a => exact ⟨fun _ => ⟨a, rfl⟩, fun _ => ⟨f a, rfl⟩⟩
  | error e => exact ⟨nofun, nofun⟩

section

variable {a : Assembly} (h : a.metadata.LaidOut)
include h

/-- From the first row on to where they stop, all parameters are looked up unless row zero is among them. -/
private theorem exists_parameters_iff (first stop : Nat) :
    (∃ rows, (List.range' first (min stop (a.metadata.rowCount .param + 1) - first)).mapM (a.metadata.row .param) =
      .ok rows) ↔ ¬(first = 0 ∧ stop ≠ 0) := by
  rw [exists_mapM_eq_ok_iff]
  simp only [h.exists_row_eq_ok_iff, List.mem_range'_1]
  constructor
  · rintro hall ⟨hzero, hstop⟩
    have := hall 0 (by omega)
    omega
  · intro hno r hr
    omega

/-- Parameters are looked up unless their list begins with row zero and has that row. -/
theorem exists_parameterNames_iff {rid : Nat} {row : Metadata.Row} (hrow : a.metadata.row .methodDef rid = .ok row) :
    (∃ names, a.parameterNames rid (row.column "ParamList") = .ok names) ↔ a.startsAtRowZero rid = false := by
  have hlist : a.parameterList? rid = some (row.column "ParamList") := by rw [parameterList?, hrow]; rfl
  rw [startsAtRowZero, hlist, parameterNames]
  dsimp only
  by_cases hlast : rid < a.metadata.rowCount .methodDef
  · obtain ⟨next, hnext⟩ := (h.exists_row_eq_ok_iff .methodDef (rid + 1)).2 ⟨by omega, by omega⟩
    rw [if_pos hlast, hnext, parameterList?, hnext]
    refine (exists_bind_pure_iff _ _).trans ((exists_parameters_iff h _ (next.column "ParamList")).trans ?_)
    simp [Except.toOption]
  · have hnone : a.parameterList? (rid + 1) = none := by
      have hno := mt (h.exists_row_eq_ok_iff .methodDef (rid + 1)).1 (by omega)
      rw [parameterList?]
      cases hrow' : a.metadata.row .methodDef (rid + 1) with
      | ok next => exact absurd ⟨next, hrow'⟩ hno
      | error e => rfl
    rw [if_neg hlast, hnone]
    refine (exists_bind_pure_iff _ _).trans ((exists_parameters_iff h _ (a.metadata.rowCount .param + 1)).trans ?_)
    simp

theorem exists_methodDef_iff {rid : Nat} (hrid : 1 ≤ rid ∧ rid ≤ a.metadata.rowCount .methodDef) :
    (∃ m, a.methodDef rid = .ok m) ↔ a.hasNamedOwner rid ∧ a.startsAtRowZero rid = false := by
  obtain ⟨row, hrow⟩ := (h.exists_row_eq_ok_iff .methodDef rid).2 hrid
  rw [← exists_parameterNames_iff h hrow, hasNamedOwner]
  constructor
  · rintro ⟨m, hm⟩
    obtain ⟨row', hdescribed⟩ := describedBy_of_methodDef hm
    obtain rfl : row = row' := Except.ok.inj (hrow.symm.trans hdescribed.found)
    exact ⟨by rw [hdescribed.declaringType]; rfl, m.parameterNames, hdescribed.parameterNames⟩
  · rintro ⟨hnamed, names, hnames⟩
    rw [methodDef, hrow]
    cases howner : a.ownerName (a.methodOwners.owner? rid) with
    | error e => rw [howner] at hnamed; contradiction
    | ok declaringType =>
      have hsignature : Tolerable (do
          let sig ← a.methodSig (a.metadata.blob (row.column "Signature"))
          return (TypeSig.renderAll sig.parameters, sig.result.render, sig.genericParameters)) :=
        (tolerable_methodSig h _).bind fun _ => .pure _
      obtain ⟨types, htypes⟩ := exists_tolerate_eq_ok hsignature ([], "?", 0)
      simp only [bind, Except.bind] at htypes ⊢
      rw [howner, htypes, hnames]
      exact ⟨_, rfl⟩

/-- The methods are those of the rows that are methods, in the order of the rows. -/
theorem methods_eq_filterMap : a.methods =
    (List.range' 1 (a.metadata.rowCount .methodDef)).filterMap fun rid => (a.methodDef rid).toOption := by
  have hfound (rid : Nat) : LookupError.tolerate none (some <$> a.methodDef rid) = .ok (a.methodDef rid).toOption := by
    cases hm : a.methodDef rid with
    | ok m => rfl
    | error e => exact if_pos (tolerable_methodDef h rid e hm)
  have hall : a.tryMethods =
      .ok (((List.range' 1 (a.metadata.rowCount .methodDef)).map fun rid => (a.methodDef rid).toOption).filterMap id) := by
    rw [tryMethods]
    simp only [hfound]
    exact congrArg (fun found => Except.map List.reduceOption found) List.mapM_pure
  rw [methods, hall]
  simp [List.filterMap_map, Except.toOption]

end

/-! ### The list -/

/-- Elements that are kept stand beside what is made of them. -/
private theorem forall₂_filterMap {α β : Type} {R : α → β → Prop} {p : α → Bool} {f : α → Option β} {l : List α}
    (hf : ∀ a ∈ l, (∃ b, f a = some b) ↔ p a) (hR : ∀ a ∈ l, ∀ b, f a = some b → R a b) :
    List.Forall₂ R (l.filter p) (l.filterMap f) := by
  induction l with
  | nil => exact .nil
  | cons a l ih =>
    have hrest := ih (fun a ha => hf a (by simp [ha])) (fun a ha => hR a (by simp [ha]))
    cases hfa : f a with
    | none =>
      have hp : ¬p a := fun hp => by simpa [hfa] using (hf a (by simp)).2 hp
      rwa [List.filter_cons_of_neg hp, List.filterMap_cons_none hfa]
    | some b =>
      have hp : p a := (hf a (by simp)).1 ⟨b, hfa⟩
      rw [List.filter_cons_of_pos hp, List.filterMap_cons_some hfa]
      exact .cons (hR a (by simp) b hfa) hrest

/-- Every row of which the type has a name and the parameters do not begin with row zero has its method, in the order of
the rows, and the method is found by its token. -/
theorem methods_described {data : Buffer} {metadata : Metadata} (hread : Metadata.read data = .ok metadata)
    (hcount : metadata.rowCount .methodDef < 2 ^ 24) :
    List.Forall₂ (fun rid m => (∃ row, (ofMetadata metadata).DescribedBy rid row m) ∧
        (ofMetadata metadata).findMethod m.token = .ok m)
      ((List.range' 1 (metadata.rowCount .methodDef)).filter fun rid =>
        (ofMetadata metadata).hasNamedOwner rid && !(ofMetadata metadata).startsAtRowZero rid)
      (ofMetadata metadata).methods := by
  have h : (ofMetadata metadata).metadata.LaidOut := Metadata.LaidOut.of_read hread
  have hok {rid : Nat} {m : Method} : ((ofMetadata metadata).methodDef rid).toOption = some m ↔
      (ofMetadata metadata).methodDef rid = .ok m := by
    cases (ofMetadata metadata).methodDef rid <;> simp [Except.toOption]
  rw [methods_eq_filterMap h]
  refine forall₂_filterMap ?_ ?_
  · intro rid hrid
    have hrange : 1 ≤ rid ∧ rid ≤ metadata.rowCount .methodDef := by
      rw [List.mem_range'_1] at hrid
      omega
    simp only [hok, exists_methodDef_iff h hrange, Bool.and_eq_true, Bool.not_eq_true']
  · intro rid hrid m hm
    rw [List.mem_range'_1] at hrid
    obtain ⟨row, hdescribed⟩ := describedBy_of_methodDef (hok.1 hm)
    obtain ⟨htable, hrow⟩ := token_methodDef (show rid < 2 ^ 24 by omega)
    refine ⟨⟨row, hdescribed⟩, ?_⟩
    rw [findMethod, hdescribed.token, if_pos htable, hrow]
    exact hok.1 hm

/-- Metadata with two methods and no name, signature or owner for them. The parameters of the first one are said to be
in row zero, those of the second one are none. -/
private def rowZero : Buffer :=
  #[0x42, 0x53, 0x4A, 0x42, 1, 0, 1, 0, 0, 0, 0, 0, 4, 0, 0, 0, 0x76, 0x34, 0, 0, 0, 0, 1, 0,
    36, 0, 0, 0, 56, 0, 0, 0, 0x23, 0x7E, 0, 0,
    0, 0, 0, 0, 2, 0, 0, 1, 0x40, 0, 0, 0, 0, 0, 0, 0, 0, 0, 0, 0, 0, 0, 0, 0, 2, 0, 0, 0,
    0x50, 0x20, 0, 0, 0, 0, 0x10, 0, 0, 0, 0, 0, 0, 0,
    0x60, 0x20, 0, 0, 0, 0, 0x10, 0, 0, 0, 0, 0, 1, 0]

/-- Only the second method is listed. -/
private def listsSecond (metadata : Metadata) : Bool :=
  metadata.rowCount .methodDef == 2 && (ofMetadata metadata).hasNamedOwner 1 && (ofMetadata metadata).hasNamedOwner 2 &&
    (ofMetadata metadata).methods.map (·.token) == [0x06000002]

private theorem read_rowZero : ∃ metadata, Metadata.read rowZero = .ok metadata ∧ listsSecond metadata :=
  exists_of_toOption_any (by decide +kernel)

theorem methods_described_rowZero :
    ∃ metadata, Metadata.read rowZero = .ok metadata ∧ metadata.rowCount .methodDef < 2 ^ 24 ∧
      (ofMetadata metadata).methods.length = 1 ∧
      List.Forall₂ (fun rid m => (∃ row, (ofMetadata metadata).DescribedBy rid row m) ∧
          (ofMetadata metadata).findMethod m.token = .ok m)
        ((List.range' 1 (metadata.rowCount .methodDef)).filter fun rid =>
          (ofMetadata metadata).hasNamedOwner rid && !(ofMetadata metadata).startsAtRowZero rid)
        (ofMetadata metadata).methods := by
  obtain ⟨metadata, hread, hlists⟩ := read_rowZero
  simp only [listsSecond, Bool.and_eq_true, beq_iff_eq] at hlists
  obtain ⟨⟨⟨hcount, -⟩, -⟩, htokens⟩ := hlists
  have hfew : metadata.rowCount .methodDef < 2 ^ 24 := by omega
  have hlength := congrArg List.length htokens
  rw [List.length_map] at hlength
  exact ⟨metadata, hread, hfew, hlength, methods_described hread hfew⟩

/-- A method with a named type is missing from the list, and nothing is wrong with it but where its parameters begin. -/
theorem methods_hidden :
    ∃ metadata, Metadata.read rowZero = .ok metadata ∧ metadata.rowCount .methodDef = 2 ∧
      (ofMetadata metadata).hasNamedOwner 1 ∧ (ofMetadata metadata).hasNamedOwner 2 ∧
      (ofMetadata metadata).methods.map (·.token) = [Metadata.Token.make .methodDef 2] := by
  obtain ⟨metadata, hread, hlists⟩ := read_rowZero
  simp only [listsSecond, Bool.and_eq_true, beq_iff_eq] at hlists
  obtain ⟨⟨⟨hcount, hfirst⟩, hsecond⟩, htokens⟩ := hlists
  exact ⟨metadata, hread, hcount, hfirst, hsecond, htokens⟩

end CilProbe.Assembly
