import CilProbe.Proofs.Assembly.Methods
import CilProbe.Proofs.CallGraph.Assembly
import CilProbe.Proofs.Signature.Closed

/-!
# What tells methods apart

The id of a method shows its type, its name and the types of its parameters, and the graph of an assembly knows methods
by nothing else.  So methods that differ only in what ids do not show, such as their result, are one node of the graph
(`Assembly.ids_collide`).

Methods that differ in what ids show have different ids if their names are plain (`Assembly.identified`): the name of a
type ends at the first colon, the name of a method at the first parenthesis, and the names of parameter types are closed,
so that they can be told apart between commas.
-/

namespace CilProbe

open Signature (Closed TypeSig)

/-! ### Reading an id -/

theorem eq_of_append_cons_eq {α : Type} {c : α} {xs xs' ys ys' : List α} (hxs : c ∉ xs) (hxs' : c ∉ xs')
    (h : xs ++ c :: ys = xs' ++ c :: ys') : xs = xs' ∧ ys = ys' := by
  induction xs generalizing xs' with
  | nil =>
    cases xs' with
    | nil => simpa using h
    | cons x' xs' =>
      obtain ⟨rfl, -⟩ := List.cons.inj h
      simp at hxs'
  | cons x xs ih =>
    cases xs' with
    | nil =>
      obtain ⟨rfl, -⟩ := List.cons.inj h
      simp at hxs
    | cons x' xs' =>
      obtain ⟨rfl, hrest⟩ := List.cons.inj h
      rw [List.mem_cons, not_or] at hxs hxs'
      obtain ⟨rfl, rfl⟩ := ih hxs.2 hxs'.2 hrest
      exact ⟨rfl, rfl⟩

/-- An id of a method with such names can be read in one way only. -/
structure Method.Legible (m : Method) : Prop where
  declaringType : ':' ∉ m.declaringType.toList
  name : '(' ∉ m.name.toList
  parameterTypes : ∀ type ∈ m.parameterTypes, Closed type

private theorem Method.toList_id (m : Method) : m.id.toList = m.declaringType.toList ++
    ':' :: ':' :: (m.name.toList ++ '(' :: ((",".intercalate m.parameterTypes).toList ++ [')'])) := by
  simp only [Method.id, String.toList_append, List.append_assoc]
  rfl

theorem Method.Legible.eq_of_id_eq {m m' : Method} (h : m.Legible) (h' : m'.Legible) (hid : m.id = m'.id) :
    m.declaringType = m'.declaringType ∧ m.name = m'.name ∧ m.parameterTypes = m'.parameterTypes := by
  have hlist := congrArg String.toList hid
  rw [m.toList_id, m'.toList_id] at hlist
  obtain ⟨htype, hlist⟩ := eq_of_append_cons_eq h.declaringType h'.declaringType hlist
  obtain ⟨hname, hlist⟩ := eq_of_append_cons_eq h.name h'.name (List.cons.inj hlist).2
  have htypes := String.toList_inj.1 (List.append_cancel_right hlist)
  exact ⟨String.toList_inj.1 htype, String.toList_inj.1 hname,
    Signature.eq_of_intercalate_eq h.parameterTypes h'.parameterTypes htypes⟩

namespace Assembly

open Metadata (Table LookupError)

/-! ### Names of an assembly -/

/-- No name holds what ids put between names. -/
structure PlainNames (a : Assembly) : Prop where
  definitions : ∀ rid name, a.typeName .typeDef rid = .ok name → ':' ∉ name.toList ∧ Closed name
  references : ∀ rid name, a.typeName .typeRef rid = .ok name → Closed name
  methods : ∀ rid row, a.metadata.row .methodDef rid = .ok row → '(' ∉ (a.metadata.string (row.column "Name")).toList

/-- Types have different names. -/
def DistinctTypes (a : Assembly) : Prop :=
  ∀ owner owner' name, a.typeName .typeDef owner = .ok name → a.typeName .typeDef owner' = .ok name → owner = owner'

/-- The methods of one type differ in their names or in their signatures. -/
def DistinctSignatures (a : Assembly) : Prop :=
  ∀ rid rid' row row' sig sig', a.metadata.row .methodDef rid = .ok row → a.metadata.row .methodDef rid' = .ok row' →
    a.methodSig (a.metadata.blob (row.column "Signature")) = .ok sig →
    a.methodSig (a.metadata.blob (row'.column "Signature")) = .ok sig' →
    a.methodOwners.owner? rid = a.methodOwners.owner? rid' →
    a.metadata.string (row.column "Name") = a.metadata.string (row'.column "Name") →
    TypeSig.renderAll sig.parameters = TypeSig.renderAll sig'.parameters → sig.result.render = sig'.result.render →
    sig.hasThis = sig'.hasThis → sig.genericParameters = sig'.genericParameters → rid = rid'

/-- Types have different names, and the methods of one type, and those without a type, differ in their names or in the
types of their parameters, of which a method with an unreadable signature has none. -/
structure DistinctMethods (a : Assembly) : Prop where
  types : a.DistinctTypes
  methods : ∀ rid rid' m m', a.methodDef rid = .ok m → a.methodDef rid' = .ok m' →
    a.methodOwners.owner? rid = a.methodOwners.owner? rid' → m.name = m'.name → m.parameterTypes = m'.parameterTypes →
    rid = rid'
  /-- If there are methods without a type, no type has the name under which these are shown. -/
  unowned : ∀ rid m owner, a.methodDef rid = .ok m → a.methodOwners.owner? rid = none →
    a.typeName .typeDef owner ≠ .ok TypeName.moduleType

variable {a : Assembly}

theorem PlainNames.closed_typeNameWithin (h : a.PlainNames) (specs : Nat) (pending : List Nat) (table : Table)
    (rid : Nat) : Yields Closed (a.typeNameWithin specs pending table (maxNesting + 1) rid) := by
  induction specs generalizing pending table rid with
  | zero =>
    unfold typeNameWithin
    split
    · exact .error _
    split
    · exact fun name hname => (h.definitions rid name hname).2
    · exact fun name hname => h.references rid name hname
    · exact .error _
    · contradiction
    · exact .error _
  | succ specs ih =>
    unfold typeNameWithin
    split
    · exact .error _
    split
    · exact fun name hname => (h.definitions rid name hname).2
    · exact fun name hname => h.references rid name hname
    · contradiction
    · next hspecs =>
      cases hspecs
      split
      · exact .error _
      · have hread (c : Signature.Cursor) := Signature.yields_readType (ih (rid :: pending)) Signature.made_closed c
        exact (Yields.trivial _).bind fun row _ => ((hread _).mapError _).bind fun _ htype => .pure htype
    · exact .error _

theorem PlainNames.closed_parameters (h : a.PlainNames) (blob : Bytes) :
    Yields (fun sig => ∀ t ∈ sig.parameters, Closed t.render) (a.methodSig blob) := by
  have hresolve (table : Table) (rid : Nat) : Yields Closed (a.resolver table rid) :=
    h.closed_typeNameWithin _ _ table rid
  exact ((Signature.yields_readMethod hresolve Signature.made_closed _).mapError _).bind fun _ hsig => .pure hsig.2

theorem PlainNames.legible (h : a.PlainNames) {rid : Nat} {m : Method} (hm : a.methodDef rid = .ok m) : m.Legible := by
  obtain ⟨row, hdescribed⟩ := describedBy_of_methodDef hm
  refine ⟨?_, ?_, ?_⟩
  · have howner := hdescribed.declaringType
    cases hrid : a.methodOwners.owner? rid with
    | none =>
      rw [hrid] at howner
      rw [← Except.ok.inj howner]
      decide
    | some owner =>
      rw [hrid] at howner
      exact (h.definitions owner _ howner).1
  · rw [hdescribed.name]
    exact h.methods rid row hdescribed.found
  · cases hsig : a.methodSig (a.metadata.blob (row.column "Signature")) with
    | error e => simp [(hdescribed.unreadable e hsig).1]
    | ok sig =>
      rw [(hdescribed.readable sig hsig).1, TypeSig.renderAll_eq]
      simpa using h.closed_parameters _ sig hsig

/-- Methods with the same id are the same row. -/
theorem rid_eq_of_id_eq (hplain : a.PlainNames) (hdistinct : a.DistinctMethods) {rid rid' : Nat} {m m' : Method}
    (hm : a.methodDef rid = .ok m) (hm' : a.methodDef rid' = .ok m') (hid : m.id = m'.id) : rid = rid' := by
  obtain ⟨htype, hname, hparameters⟩ := (hplain.legible hm).eq_of_id_eq (hplain.legible hm') hid
  obtain ⟨row, hdescribed⟩ := describedBy_of_methodDef hm
  obtain ⟨row', hdescribed'⟩ := describedBy_of_methodDef hm'
  have howner := hdescribed.declaringType
  have howner' := hdescribed'.declaringType
  rw [← htype] at howner'
  refine hdistinct.methods rid rid' m m' hm hm' ?_ hname hparameters
  cases hrid : a.methodOwners.owner? rid with
  | none =>
    cases hrid' : a.methodOwners.owner? rid' with
    | none => rfl
    | some owner' =>
      rw [hrid] at howner
      rw [hrid', ← howner] at howner'
      exact absurd howner' (hdistinct.unowned rid m owner' hm hrid)
  | some owner =>
    rw [hrid] at howner
    cases hrid' : a.methodOwners.owner? rid' with
    | none =>
      rw [hrid', ← howner] at howner'
      exact absurd howner'.symm (hdistinct.unowned rid' m' owner hm' hrid')
    | some owner' =>
      rw [hrid'] at howner'
      rw [hdistinct.types owner owner' _ howner howner']

/-! ### The graph -/

/-- Every method has an id of its own, a node of its own and the edges of its own calls. -/
structure Identified (a : Assembly) (bodies : BodySource Id) : Prop where
  ids : ∀ rid rid' m m', a.methodDef rid = .ok m → a.methodDef rid' = .ok m' → m.id = m'.id → rid = rid'
  nodup : ((Id.run (a.callSource bodies).graph).nodes.map (·.id)).Nodup
  nodes : ∀ rid m, a.methodDef rid = .ok m →
    ⟨m.id, m.displayName, false⟩ ∈ (Id.run (a.callSource bodies).graph).nodes
  edges : ∀ rid m, a.methodDef rid = .ok m → ∀ e : CallGraph.Edge, e.source = m.id →
    (e ∈ (Id.run (a.callSource bodies).graph).edges ↔
      ∃ t, (a.callSource bodies).Calls m t e.kind ∧ t.assembly = a.name ∧ e.target = t.id)

theorem mem_methods (h : a.metadata.LaidOut) {m : Method} : m ∈ a.methods ↔ ∃ rid, a.methodDef rid = .ok m := by
  rw [methods_eq_filterMap h, List.mem_filterMap]
  constructor
  · rintro ⟨rid, -, hm⟩
    exact ⟨rid, by cases hmethod : a.methodDef rid <;> simp_all [Except.toOption]⟩
  · rintro ⟨rid, hm⟩
    obtain ⟨row, hdescribed⟩ := describedBy_of_methodDef hm
    have hrid := (h.exists_row_eq_ok_iff .methodDef rid).1 ⟨row, hdescribed.found⟩
    refine ⟨rid, ?_, by rw [hm]; rfl⟩
    rw [List.mem_range'_1]
    omega

/-- Listed methods with the same id are the same. -/
theorem eq_of_mem_methods (h : a.metadata.LaidOut) (hplain : a.PlainNames) (hdistinct : a.DistinctMethods) {m m' : Method}
    (hm : m ∈ a.methods) (hm' : m' ∈ a.methods) (hid : m.id = m'.id) : m = m' := by
  obtain ⟨rid, hm⟩ := (mem_methods h).1 hm
  obtain ⟨rid', hm'⟩ := (mem_methods h).1 hm'
  obtain rfl := rid_eq_of_id_eq hplain hdistinct hm hm' hid
  exact Except.ok.inj (hm.symm.trans hm')

theorem find?_methods (h : a.metadata.LaidOut) (hplain : a.PlainNames) (hdistinct : a.DistinctMethods) {m : Method}
    (hm : m ∈ a.methods) : a.methods.find? (·.id == m.id) = some m := by
  have hsome : (a.methods.find? (·.id == m.id)).isSome := List.find?_isSome.2 ⟨m, hm, beq_self_eq_true m.id⟩
  obtain ⟨first, hfirst⟩ := Option.isSome_iff_exists.1 hsome
  have hid : first.id = m.id := by simpa using List.find?_some hfirst
  rw [hfirst, eq_of_mem_methods h hplain hdistinct (List.mem_of_find?_eq_some hfirst) hm hid]

theorem identified {data : Buffer} {metadata : Metadata} (hread : Metadata.read data = .ok metadata)
    (hplain : (ofMetadata metadata).PlainNames) (hdistinct : (ofMetadata metadata).DistinctMethods)
    (bodies : BodySource Id) : (ofMetadata metadata).Identified bodies := by
  have h : (ofMetadata metadata).metadata.LaidOut := Metadata.LaidOut.of_read hread
  generalize ofMetadata metadata = a at h hplain hdistinct
  have hgraph := ((a.callSource bodies).recorded_graph).2
  refine ⟨fun rid rid' m m' hm hm' => rid_eq_of_id_eq hplain hdistinct hm hm', hgraph.wellFormed.nodup_ids, ?_, ?_⟩
  · intro rid m hm
    have hfirst : (a.callSource bodies).methods.find? (·.id == m.id) = some m :=
      find?_methods h hplain hdistinct ((mem_methods h).2 ⟨rid, hm⟩)
    exact hgraph.nodeOf_mem (by rw [List.find?_append, hfirst, Option.some_or])
  · intro rid m hm e hsource
    have hlisted : m ∈ a.methods := (mem_methods h).2 ⟨rid, hm⟩
    rw [hgraph.edges, List.mem_eraseDups, List.mem_map]
    constructor
    · rintro ⟨⟨m', t, kind⟩, hc, rfl⟩
      obtain ⟨hm', hcall, hlocal⟩ := CallSource.mem_localCalls.1 hc
      obtain rfl := eq_of_mem_methods h hplain hdistinct hm' hlisted hsource
      exact ⟨t, hcall, hlocal, rfl⟩
    · rintro ⟨t, hcall, hlocal, htarget⟩
      refine ⟨(m, t, e.kind), CallSource.mem_localCalls.2 ⟨hlisted, hcall, hlocal⟩, ?_⟩
      rw [CallGraph.edgeOf, ← hsource, ← htarget]

/-! ### Two methods of one name -/

private theorem exists_row_of_typeName {table : Table} (htable : table = .typeDef ∨ table = .typeRef) {rid : Nat}
    {name : String} (h : a.typeName table rid = .ok name) : ∃ row, a.metadata.row table rid = .ok row := by
  rcases htable with rfl | rfl
  · have hname : a.typeDefName (maxNesting + 1) rid = .ok name := h
    rw [typeDefName] at hname
    obtain ⟨row, hrow, -⟩ := exists_of_bind_eq_ok hname
    exact ⟨row, hrow⟩
  · have hname : a.typeRefName (maxNesting + 1) rid = .ok name := h
    rw [typeRefName] at hname
    obtain ⟨row, hrow, -⟩ := exists_of_bind_eq_ok hname
    exact ⟨row, hrow⟩

/-- Metadata of a type `A` with two static methods `Run`. The first one has no parameters and no result, the second one
has this signature. -/
private def twoRuns (signature : Bytes) : Buffer :=
  ([0x42, 0x53, 0x4A, 0x42, 1, 0, 1, 0, 0, 0, 0, 0, 4, 0, 0, 0, 0x76, 0x34, 0, 0, 0, 0, 3, 0,
    72, 0, 0, 0, 74, 0, 0, 0, 0x23, 0x7E, 0, 0,
    146, 0, 0, 0, 7, 0, 0, 0, 0x23, 0x53, 0x74, 0x72, 0x69, 0x6E, 0x67, 0x73, 0, 0, 0, 0,
    153, 0, 0, 0, 6 + signature.length.toUInt8, 0, 0, 0, 0x23, 0x42, 0x6C, 0x6F, 0x62, 0, 0, 0,
    0, 0, 0, 0, 2, 0, 0, 1, 0x44, 0, 0, 0, 0, 0, 0, 0, 0, 0, 0, 0, 0, 0, 0, 0, 1, 0, 0, 0, 2, 0, 0, 0,
    1, 0, 0, 0, 1, 0, 0, 0, 0, 0, 1, 0, 1, 0,
    0x50, 0x20, 0, 0, 0, 0, 0x10, 0, 3, 0, 1, 0, 1, 0,
    0x60, 0x20, 0, 0, 0, 0, 0x10, 0, 3, 0, 5, 0, 1, 0,
    0, 0x41, 0, 0x52, 0x75, 0x6E, 0,
    0, 3, 0, 0, 1, signature.length.toUInt8] ++ signature : Bytes).toArray

/-- There are the type `A` and two methods `Run` of it with these parameter and result types. -/
private def hasRuns (first second : List String × String) (metadata : Metadata) : Bool :=
  let a := ofMetadata metadata
  metadata.rowCount .typeDef == 1 && metadata.rowCount .typeRef == 0 && metadata.rowCount .methodDef == 2 &&
    (a.typeName .typeDef 1).toOption == some "A" &&
    ((a.methodDef 1).toOption.map fun m => ((m.declaringType, m.name), m.parameterTypes, m.returnType)) ==
      some (("A", "Run"), first) &&
    ((a.methodDef 2).toOption.map fun m => ((m.declaringType, m.name), m.parameterTypes, m.returnType)) ==
      some (("A", "Run"), second)

/-- The methods of such metadata. -/
private structure Runs (a : Assembly) (m m' : Method) : Prop where
  type : ∀ owner name, a.typeName .typeDef owner = .ok name → owner = 1 ∧ name = "A"
  noReference : ∀ rid name, a.typeName .typeRef rid ≠ .ok name
  rows : ∀ rid row, a.metadata.row .methodDef rid = .ok row → rid = 1 ∨ rid = 2
  first : a.methodDef 1 = .ok m
  second : a.methodDef 2 = .ok m'
  names : (m.declaringType, m.name) = ("A", "Run")
  names' : (m'.declaringType, m'.name) = ("A", "Run")

private theorem exists_runs {signature : Bytes} {first second : List String × String}
    (h : (Metadata.read (twoRuns signature)).toOption.any (hasRuns first second) = true) :
    ∃ metadata m m', Metadata.read (twoRuns signature) = .ok metadata ∧ Runs (ofMetadata metadata) m m' ∧
      (m.parameterTypes, m.returnType) = first ∧ (m'.parameterTypes, m'.returnType) = second := by
  obtain ⟨metadata, hread, h⟩ := exists_of_toOption_any h
  have hlaid := Metadata.LaidOut.of_read hread
  simp only [hasRuns, Bool.and_eq_true, beq_iff_eq] at h
  obtain ⟨⟨⟨⟨⟨htypes, hreferences⟩, hmethods⟩, hname⟩, hfirst⟩, hsecond⟩ := h
  obtain ⟨m, hm, hfirst⟩ := Option.map_eq_some_iff.1 hfirst
  obtain ⟨m', hm', hsecond⟩ := Option.map_eq_some_iff.1 hsecond
  rw [Prod.mk.injEq] at hfirst hsecond
  refine ⟨metadata, m, m', hread, ⟨?_, ?_, ?_, eq_ok_of_toOption hm, eq_ok_of_toOption hm', hfirst.1, hsecond.1⟩,
    hfirst.2, hsecond.2⟩
  · intro owner name howner
    have hrow := (hlaid.exists_row_eq_ok_iff _ _).1 (exists_row_of_typeName (.inl rfl) howner)
    obtain rfl : owner = 1 := by omega
    exact ⟨rfl, Except.ok.inj (howner.symm.trans (eq_ok_of_toOption hname))⟩
  · intro rid name hrid
    have hrow := (hlaid.exists_row_eq_ok_iff _ _).1 (exists_row_of_typeName (.inr rfl) hrid)
    omega
  · intro rid row hrow
    have hrid := (hlaid.exists_row_eq_ok_iff _ _).1 ⟨row, hrow⟩
    omega

namespace Runs

variable {m m' : Method}

private theorem distinctTypes (h : Runs a m m') : a.DistinctTypes := by
  intro owner owner' name howner howner'
  rw [(h.type owner name howner).1, (h.type owner' name howner').1]

/-- Every row is that of one of the methods. -/
private theorem described (h : Runs a m m') {rid : Nat} {row : Metadata.Row}
    (hrow : a.metadata.row .methodDef rid = .ok row) : ∃ n, a.methodDef rid = .ok n ∧ a.DescribedBy rid row n := by
  obtain ⟨n, hn⟩ : ∃ n, a.methodDef rid = .ok n := by
    rcases h.rows rid row hrow with rfl | rfl
    · exact ⟨m, h.first⟩
    · exact ⟨m', h.second⟩
  obtain ⟨row', hdescribed⟩ := describedBy_of_methodDef hn
  obtain rfl := Except.ok.inj (hrow.symm.trans hdescribed.found)
  exact ⟨n, hn, hdescribed⟩

private theorem eq_or_eq (h : Runs a m m') {rid : Nat} {n : Method} (hn : a.methodDef rid = .ok n) :
    rid = 1 ∧ n = m ∨ rid = 2 ∧ n = m' := by
  obtain ⟨row, hdescribed⟩ := describedBy_of_methodDef hn
  rcases h.rows rid row hdescribed.found with rfl | rfl
  · exact .inl ⟨rfl, Except.ok.inj (hn.symm.trans h.first)⟩
  · exact .inr ⟨rfl, Except.ok.inj (hn.symm.trans h.second)⟩

/-- Whatever the two methods differ in tells the rows apart. -/
private theorem rid_eq {α : Type} (h : Runs a m m') (f : Method → α) (hne : f m ≠ f m') {rid rid' : Nat} {n n' : Method}
    (hn : a.methodDef rid = .ok n) (hn' : a.methodDef rid' = .ok n') (hf : f n = f n') : rid = rid' := by
  rcases h.eq_or_eq hn with ⟨rfl, rfl⟩ | ⟨rfl, rfl⟩ <;> rcases h.eq_or_eq hn' with ⟨rfl, rfl⟩ | ⟨rfl, rfl⟩
  · rfl
  · exact absurd hf hne
  · exact absurd hf.symm hne
  · rfl

private theorem plainNames (h : Runs a m m') : a.PlainNames where
  definitions rid name hname := by
    rw [(h.type rid name hname).2]
    decide
  references rid name hname := absurd hname (h.noReference rid name)
  methods rid row hrow := by
    obtain ⟨n, hn, hdescribed⟩ := h.described hrow
    have hname : n.name = "Run" := by
      rcases h.eq_or_eq hn with ⟨-, rfl⟩ | ⟨-, rfl⟩
      · exact (Prod.mk.inj h.names).2
      · exact (Prod.mk.inj h.names').2
    rw [← hdescribed.name, hname]
    decide

private theorem distinctMethods (h : Runs a m m') (hne : m.parameterTypes ≠ m'.parameterTypes) :
    a.DistinctMethods where
  types := h.distinctTypes
  methods _ _ _ _ hn hn' _ _ htypes := h.rid_eq Method.parameterTypes hne hn hn' htypes
  unowned rid n owner _ _ howner := by
    have hname := (h.type owner _ howner).2
    contradiction

private theorem distinctSignatures (h : Runs a m m') (hne : m.returnType ≠ m'.returnType) : a.DistinctSignatures := by
  intro rid rid' row row' sig sig' hrow hrow' hsig hsig' _ _ _ hresult _ _
  obtain ⟨n, hn, hdescribed⟩ := h.described hrow
  obtain ⟨n', hn', hdescribed'⟩ := h.described hrow'
  refine h.rid_eq Method.returnType hne hn hn' ?_
  rw [(hdescribed.readable sig hsig).2.1, (hdescribed'.readable sig' hsig').2.1, hresult]

end Runs

theorem identified_twoRuns :
    ∃ metadata, Metadata.read (twoRuns [0, 2, 1, 0x1D, 0x12, 4, 8]) = .ok metadata ∧
      (ofMetadata metadata).PlainNames ∧ (ofMetadata metadata).DistinctMethods ∧
      (∃ m m', (ofMetadata metadata).methodDef 1 = .ok m ∧ (ofMetadata metadata).methodDef 2 = .ok m' ∧
        m.name = m'.name) ∧
      (ofMetadata metadata).Identified fun _ => none := by
  obtain ⟨metadata, m, m', hread, hruns, hfirst, hsecond⟩ := exists_runs
    (show (Metadata.read (twoRuns [0, 2, 1, 0x1D, 0x12, 4, 8])).toOption.any
      (hasRuns ([], "System.Void") (["A[]", "System.Int32"], "System.Void")) = true by decide +kernel)
  have hne : m.parameterTypes ≠ m'.parameterTypes := by
    rw [(Prod.mk.inj hfirst).1, (Prod.mk.inj hsecond).1]
    decide
  exact ⟨metadata, hread, hruns.plainNames, hruns.distinctMethods hne,
    ⟨m, m', hruns.first, hruns.second, (Prod.mk.inj (hruns.names.trans hruns.names'.symm)).2⟩,
    identified hread hruns.plainNames (hruns.distinctMethods hne) _⟩

/-- Methods that differ only in their results have the same id, and with it the same node. -/
theorem ids_collide :
    ∃ metadata, Metadata.read (twoRuns [0, 0, 8]) = .ok metadata ∧
      (ofMetadata metadata).DistinctTypes ∧ (ofMetadata metadata).DistinctSignatures ∧
      ∃ m m', (ofMetadata metadata).methodDef 1 = .ok m ∧ (ofMetadata metadata).methodDef 2 = .ok m' ∧
        m.returnType ≠ m'.returnType ∧ m.id = m'.id := by
  obtain ⟨metadata, m, m', hread, hruns, hfirst, hsecond⟩ := exists_runs
    (show (Metadata.read (twoRuns [0, 0, 8])).toOption.any
      (hasRuns ([], "System.Void") ([], "System.Int32")) = true by decide +kernel)
  have hne : m.returnType ≠ m'.returnType := by
    rw [(Prod.mk.inj hfirst).2, (Prod.mk.inj hsecond).2]
    decide
  obtain ⟨htype, hname⟩ := Prod.mk.inj (hruns.names.trans hruns.names'.symm)
  have hparameters : m.parameterTypes = m'.parameterTypes := (Prod.mk.inj hfirst).1.trans (Prod.mk.inj hsecond).1.symm
  refine ⟨metadata, hread, hruns.distinctTypes, hruns.distinctSignatures hne, m, m', hruns.first, hruns.second, hne, ?_⟩
  rw [Method.id, Method.id, htype, hname, hparameters]

end CilProbe.Assembly
