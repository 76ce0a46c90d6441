import CilProbe.Proofs.Assembly.Identity
import CilProbe.Proofs.TypeName

/-!
# Names tell types apart

The name of a type definition is its own name behind the names of the types around it, and only the outermost of these
is shown with its namespace.  If types are nested as they should be (`Metadata.WellNested`) and none has the name of its
neighbours (`Metadata.DistinctNames`), then every type has a name, and no two types have the same one
(`Assembly.named_distinctly`): what stands behind the last plus is the name of the type, and what stands in front of it
is the name of the type around it.
-/

namespace CilProbe

open Metadata (Table LookupError)

/-! ### Nesting -/

namespace Metadata

variable (m : Metadata)

/-- The types that are nested in others, each with the one around it. -/
def nestings : List (Nat × Nat) :=
  (m.rows .nestedClass).map fun row => (row.column "NestedClass", row.column "EnclosingClass")

/-- The numbers of the type definitions. -/
def IsType (rid : Nat) : Prop := 1 ≤ rid ∧ rid ≤ m.rowCount .typeDef

/-- Types that exist are nested in types that exist, each in one, and no type is more than sixteen types deep; so there
are no circles. -/
structure WellNested : Prop where
  valid : ∀ inner outer, (inner, outer) ∈ m.nestings → m.IsType inner ∧ m.IsType outer
  unique : ∀ inner outer outer', (inner, outer) ∈ m.nestings → (inner, outer') ∈ m.nestings → outer = outer'
  depth : ∀ types : List Nat, types.IsChain (fun inner outer => (inner, outer) ∈ m.nestings) → types.length ≤ 16 + 1

/-- Names and namespaces of types hold no separators, and types differ from their neighbours: those that are nested in
the same type in their names, and those that are not nested in their names or in their namespaces. -/
structure DistinctNames : Prop where
  names : ∀ rid row, m.row .typeDef rid = .ok row →
    '.' ∉ (m.string (row.column "TypeName")).toList ∧ '+' ∉ (m.string (row.column "TypeName")).toList
  namespaces : ∀ rid row, m.row .typeDef rid = .ok row → '+' ∉ (m.string (row.column "TypeNamespace")).toList
  outermost : ∀ rid rid' row row', m.row .typeDef rid = .ok row → m.row .typeDef rid' = .ok row' →
    (∀ outer, (rid, outer) ∉ m.nestings) → (∀ outer, (rid', outer) ∉ m.nestings) →
    m.string (row.column "TypeNamespace") = m.string (row'.column "TypeNamespace") →
    m.string (row.column "TypeName") = m.string (row'.column "TypeName") → rid = rid'
  nested : ∀ rid rid' row row' outer, m.row .typeDef rid = .ok row → m.row .typeDef rid' = .ok row' →
    (rid, outer) ∈ m.nestings → (rid', outer) ∈ m.nestings →
    m.string (row.column "TypeName") = m.string (row'.column "TypeName") → rid = rid'

end Metadata

/-! ### The type around a type -/

theorem lookup_insertByKey (key value : Nat) (entries : List (Nat × Nat)) (k : Nat) :
    (insertByKey key value entries).lookup k = ([(key, value)].lookup k).or (entries.lookup k) := by
  induction entries with
  | nil => rw [insertByKey, List.lookup_nil, Option.or_none]
  | cons entry entries ih =>
    obtain ⟨first, _⟩ := entry
    rw [insertByKey]
    split
    · rw [← List.lookup_append, List.singleton_append]
    · next hcompare =>
      obtain rfl : key = first := Nat.compare_eq_eq.1 hcompare
      rw [List.lookup_cons, List.lookup_cons, List.lookup_cons, List.lookup_nil]
      cases k == key <;> rfl
    · next hcompare =>
      have hne : key ≠ first := Nat.ne_of_gt (Nat.compare_eq_gt.1 hcompare)
      rw [List.lookup_cons, ih, List.lookup_cons, List.lookup_cons, List.lookup_nil]
      by_cases hk : k = first
      · have hkey : (k == key) = false := beq_eq_false_iff_ne.2 (hk ▸ hne.symm)
        rw [hk, beq_self_eq_true, ← hk, hkey]
        rfl
      · rw [beq_eq_false_iff_ne.2 hk]

/-- Of entries with one key the last one is found. -/
theorem lookup_foldl_insertByKey (entries found : List (Nat × Nat)) (k : Nat) :
    (entries.foldl (fun found entry => insertByKey entry.1 entry.2 found) found).lookup k =
      (entries.reverse.lookup k).or (found.lookup k) := by
  induction entries generalizing found with
  | nil => rfl
  | cons entry entries ih =>
    rw [List.foldl_cons, ih, lookup_insertByKey, List.reverse_cons, List.lookup_append, Option.or_assoc]

namespace Assembly

variable {m : Metadata}

theorem lookup_enclosing (k : Nat) : (ofMetadata m).enclosing.lookup k = m.nestings.reverse.lookup k := by
  have hfold : (ofMetadata m).enclosing =
      m.nestings.foldl (fun found entry => insertByKey entry.1 entry.2 found) [] := by
    rw [Metadata.nestings, List.foldl_map]
    rfl
  rw [hfold, lookup_foldl_insertByKey, List.lookup_nil, Option.or_none]

theorem mem_nestings_of_lookup {inner outer : Nat} (h : (ofMetadata m).enclosing.lookup inner = some outer) :
    (inner, outer) ∈ m.nestings := by
  rw [lookup_enclosing, List.lookup_eq_some_iff] at h
  obtain ⟨before, after, heq, -⟩ := h
  rw [← List.mem_reverse, heq]
  simp

theorem notMem_nestings_of_lookup {inner : Nat} (h : (ofMetadata m).enclosing.lookup inner = none) (outer : Nat) :
    (inner, outer) ∉ m.nestings := by
  rw [lookup_enclosing, List.lookup_eq_none_iff] at h
  intro hmem
  simpa using h _ (List.mem_reverse.2 hmem)

/-! ### One level of a name -/

/-- The name of a type is that of the row behind that of the type around it, or, if there is none, behind the
namespace. -/
theorem typeDefName_cases {levels rid : Nat} {name : String}
    (h : (ofMetadata m).typeDefName (levels + 1) rid = .ok name) :
    ∃ row, m.row .typeDef rid = .ok row ∧
      ((∃ outer front, (rid, outer) ∈ m.nestings ∧ (ofMetadata m).typeDefName levels outer = .ok front ∧
          name = front ++ "+" ++ m.string (row.column "TypeName")) ∨
        ((∀ outer, (rid, outer) ∉ m.nestings) ∧
          name = TypeName.qualified (m.string (row.column "TypeNamespace")) (m.string (row.column "TypeName")))) := by
  rw [typeDefName] at h
  obtain ⟨row, hrow, h⟩ := exists_of_bind_eq_ok h
  refine ⟨row, hrow, ?_⟩
  split at h
  · next outer houter =>
    obtain ⟨front, hfront, h⟩ := exists_of_bind_eq_ok h
    cases h
    exact .inl ⟨outer, front, mem_nestings_of_lookup houter, hfront, rfl⟩
  · next hnone =>
    cases h
    exact .inr ⟨notMem_nestings_of_lookup hnone, rfl⟩

/-! ### Every type has a name -/

/-- A type can be named if less than `levels` types stand around it. -/
theorem exists_typeDefName (hlaid : m.LaidOut) (hnested : m.WellNested) {levels rid : Nat} (hrid : m.IsType rid)
    (hdepth : ∀ types, (rid :: types).IsChain (fun inner outer => (inner, outer) ∈ m.nestings) → types.length < levels) :
    ∃ name, (ofMetadata m).typeDefName levels rid = .ok name := by
  induction levels generalizing rid with
  | zero => exact absurd (hdepth [] (.singleton rid)) (Nat.not_lt_zero 0)
  | succ levels ih =>
    obtain ⟨row, hrow⟩ := (hlaid.exists_row_eq_ok_iff .typeDef rid).2 hrid
    have hrow : (ofMetadata m).metadata.row .typeDef rid = .ok row := hrow
    rw [typeDefName, hrow]
    cases houter : (ofMetadata m).enclosing.lookup rid with
    | none => exact ⟨_, rfl⟩
    | some outer =>
      have hmem := mem_nestings_of_lookup houter
      -- A chain from the outer type goes on from this one, so one level less is enough for it.
      have hchains (types : List Nat)
          (htypes : (outer :: types).IsChain fun inner outer => (inner, outer) ∈ m.nestings) : types.length < levels :=
        Nat.lt_of_succ_lt_succ (hdepth (outer :: types) (.cons_cons hmem htypes))
      obtain ⟨front, hfront⟩ := ih (hnested.valid rid outer hmem).2 hchains
      simp only [bind, Except.bind, hfront]
      exact ⟨_, rfl⟩

/-! ### No two types have the same name -/

private theorem eq_of_append_plus_eq {front front' name name' : String} (hname : '+' ∉ name.toList)
    (hname' : '+' ∉ name'.toList) (h : front ++ "+" ++ name = front' ++ "+" ++ name') : front = front' ∧ name = name' := by
  have hlist := congrArg (fun text : String => text.toList.reverse) h
  simp only [String.toList_append, List.reverse_append, List.append_assoc] at hlist
  obtain ⟨hreverse, hrest⟩ := eq_of_append_cons_eq (mt List.mem_reverse.1 hname) (mt List.mem_reverse.1 hname') hlist
  exact ⟨String.toList_injective (List.reverse_injective hrest),
    String.toList_injective (List.reverse_injective hreverse)⟩

private theorem notMem_qualified {space name : String} (hspace : '+' ∉ space.toList) (hname : '+' ∉ name.toList) :
    '+' ∉ (TypeName.qualified space name).toList := by
  rw [TypeName.qualified]
  split
  · exact hname
  · simp [hspace, hname]

/-- By induction on the levels of one of the names: a plus stands in the names of nested types only, and behind the last
plus stands the name of the type itself. -/
theorem rid_eq_of_typeDefName_eq (hnames : m.DistinctNames) {levels levels' rid rid' : Nat} {name : String}
    (h : (ofMetadata m).typeDefName levels rid = .ok name) (h' : (ofMetadata m).typeDefName levels' rid' = .ok name) :
    rid = rid' := by
  induction levels generalizing levels' rid rid' name with
  | zero => contradiction
  | succ levels ih =>
    cases levels' with
    | zero => contradiction
    | succ levels' =>
      obtain ⟨row, hrow, hcases⟩ := typeDefName_cases h
      obtain ⟨row', hrow', hcases'⟩ := typeDefName_cases h'
      obtain ⟨hpoint, hplus⟩ := hnames.names rid row hrow
      obtain ⟨hpoint', hplus'⟩ := hnames.names rid' row' hrow'
      have hspace := notMem_qualified (hnames.namespaces rid row hrow) hplus
      have hspace' := notMem_qualified (hnames.namespaces rid' row' hrow') hplus'
      -- Both names are nested, one of them is, or none.
      rcases hcases with ⟨outer, front, hnested, hfront, rfl⟩ | ⟨houtermost, rfl⟩ <;>
        rcases hcases' with ⟨outer', front', hnested', hfront', heq⟩ | ⟨houtermost', heq⟩
      · obtain ⟨rfl, hname⟩ := eq_of_append_plus_eq hplus hplus' heq
        obtain rfl := ih hfront hfront'
        exact hnames.nested rid rid' row row' outer hrow hrow' hnested hnested' hname
      · rw [← heq] at hspace'
        simp at hspace'
      · rw [heq] at hspace
        simp at hspace
      · obtain ⟨hspaces, hname⟩ := TypeName.qualified_inj hpoint hpoint' heq
        exact hnames.outermost rid rid' row row' hrow hrow' houtermost houtermost' hspaces hname

/-- Every type definition has a name, and none has that of another. -/
theorem named_distinctly {data : Buffer} {m : Metadata} (hread : Metadata.read data = .ok m)
    (hnested : m.WellNested) (hnames : m.DistinctNames) :
    (∀ rid, 1 ≤ rid → rid ≤ m.rowCount .typeDef → ∃ name, (ofMetadata m).typeName .typeDef rid = .ok name) ∧
      (ofMetadata m).DistinctTypes := by
  refine ⟨fun rid hpos hle => ?_, fun rid rid' name h h' => rid_eq_of_typeDefName_eq hnames h h'⟩
  exact exists_typeDefName (Metadata.LaidOut.of_read hread) hnested ⟨hpos, hle⟩ fun types htypes =>
    hnested.depth (rid :: types) htypes

/-- Metadata of a type `A` in the namespace `N`, of a type `B` in it and of another `B` in this one, and of types `B` and
`A` without a namespace. -/
private def nestedTypes : Buffer :=
  ([0x42, 0x53, 0x4A, 0x42, 1, 0, 1, 0, 0, 0, 0, 0, 4, 0, 0, 0, 0x76, 0x34, 0, 0, 0, 0, 2, 0,
    56, 0, 0, 0, 110, 0, 0, 0, 0x23, 0x7E, 0, 0,
    166, 0, 0, 0, 7, 0, 0, 0, 0x23, 0x53, 0x74, 0x72, 0x69, 0x6E, 0x67, 0x73, 0, 0, 0, 0,
    0, 0, 0, 0, 2, 0, 0, 1, 4, 0, 0, 0, 0, 2, 0, 0, 0, 0, 0, 0, 0, 0, 0, 0, 5, 0, 0, 0, 2, 0, 0, 0,
    0, 0, 0, 0, 1, 0, 5, 0, 0, 0, 1, 0, 1, 0,
    0, 0, 0, 0, 3, 0, 0, 0, 0, 0, 1, 0, 1, 0,
    0, 0, 0, 0, 3, 0, 0, 0, 0, 0, 1, 0, 1, 0,
    0, 0, 0, 0, 3, 0, 0, 0, 0, 0, 1, 0, 1, 0,
    0, 0, 0, 0, 1, 0, 0, 0, 0, 0, 1, 0, 1, 0,
    2, 0, 1, 0, 3, 0, 2, 0,
    0, 0x41, 0, 0x42, 0, 0x4E, 0] : Bytes).toArray

/-- The namespace and the name in the row of a type. -/
private def namesOf (m : Metadata) (rid : Nat) : Option (String × String) :=
  (m.row .typeDef rid).toOption.map fun row => (m.string (row.column "TypeNamespace"), m.string (row.column "TypeName"))

private def hasNestedTypes (m : Metadata) : Bool :=
  m.rowCount .typeDef == 5 && m.nestings == [(2, 1), (3, 2)] &&
    (List.range' 1 5).map (namesOf m) ==
      [some ("N", "A"), some ("", "B"), some ("", "B"), some ("", "B"), some ("", "A")] &&
    ((ofMetadata m).typeName .typeDef 3).toOption == some "N.A+B+B"

/-- The types of such metadata with their namespaces and names. -/
private def typesNamed : List (Nat × String × String) :=
  [(1, "N", "A"), (2, "", "B"), (3, "", "B"), (4, "", "B"), (5, "", "A")]

private theorem mem_typesNamed {m : Metadata} (hlaid : m.LaidOut) (h : hasNestedTypes m = true) {rid : Nat}
    {row : Metadata.Row} (hrow : m.row .typeDef rid = .ok row) :
    (rid, m.string (row.column "TypeNamespace"), m.string (row.column "TypeName")) ∈ typesNamed := by
  simp only [hasNestedTypes, Bool.and_eq_true, beq_iff_eq] at h
  obtain ⟨⟨⟨hcount, -⟩, hnames⟩, -⟩ := h
  have hrid := (hlaid.exists_row_eq_ok_iff .typeDef rid).1 ⟨row, hrow⟩
  have hname : namesOf m rid = some (m.string (row.column "TypeNamespace"), m.string (row.column "TypeName")) := by
    rw [namesOf, hrow]
    rfl
  simp only [List.range'_succ, List.range'_zero, List.map_cons, List.map_nil, List.cons.injEq, and_true] at hnames
  obtain ⟨h₁, h₂, h₃, h₄, h₅⟩ := hnames
  obtain rfl | rfl | rfl | rfl | rfl : rid = 1 ∨ rid = 2 ∨ rid = 3 ∨ rid = 4 ∨ rid = 5 := by omega
  all_goals simp_all [typesNamed]

private theorem wellNested_nestedTypes {m : Metadata} (hcount : m.rowCount .typeDef = 5)
    (hnestings : m.nestings = [(2, 1), (3, 2)]) : m.WellNested := by
  refine ⟨fun inner outer => ?_, fun inner outer outer' => ?_, fun types htypes => ?_⟩
  · simp only [hnestings, List.mem_pair, Prod.mk.injEq, Metadata.IsType, hcount]
    omega
  · simp only [hnestings, List.mem_pair, Prod.mk.injEq]
    omega
  · rcases types with _ | ⟨_, _ | ⟨_, _ | ⟨_, _ | ⟨_, _⟩⟩⟩⟩
    case cons.cons.cons.cons =>
      simp only [hnestings, List.isChain_cons_cons, List.mem_pair, Prod.mk.injEq] at htypes
      omega
    all_goals simp

private theorem distinctNames_nestedTypes {m : Metadata} (hlaid : m.LaidOut) (hnestings : m.nestings = [(2, 1), (3, 2)])
    (h : hasNestedTypes m = true) : m.DistinctNames := by
  have hplain : ∀ type ∈ typesNamed,
      '+' ∉ type.2.1.toList ∧ '.' ∉ type.2.2.toList ∧ '+' ∉ type.2.2.toList := by decide
  have houtermost : ∀ type ∈ typesNamed, ∀ type' ∈ typesNamed, type.1 ≠ 2 → type.1 ≠ 3 → type'.1 ≠ 2 → type'.1 ≠ 3 →
      type.2 = type'.2 → type.1 = type'.1 := by decide
  have hnot {rid : Nat} (hnone : ∀ outer, (rid, outer) ∉ m.nestings) : rid ≠ 2 ∧ rid ≠ 3 := by
    simpa [hnestings] using And.intro (hnone 1) (hnone 2)
  refine ⟨fun rid row hrow => (hplain _ (mem_typesNamed hlaid h hrow)).2,
    fun rid row hrow => (hplain _ (mem_typesNamed hlaid h hrow)).1, ?_, ?_⟩
  · intro rid rid' row row' hrow hrow' hnone hnone' hspace hname
    exact houtermost _ (mem_typesNamed hlaid h hrow) _ (mem_typesNamed hlaid h hrow') (hnot hnone).1 (hnot hnone).2
      (hnot hnone').1 (hnot hnone').2 (Prod.ext hspace hname)
  · intro rid rid' row row' outer _ _ hnested hnested' _
    simp only [hnestings, List.mem_pair, Prod.mk.injEq] at hnested hnested'
    omega

theorem named_distinctly_nestedTypes :
    ∃ m, Metadata.read nestedTypes = .ok m ∧ m.WellNested ∧ m.DistinctNames ∧
      (ofMetadata m).typeName .typeDef 3 = .ok "N.A+B+B" ∧
      (∃ name, (ofMetadata m).typeName .typeDef 4 = .ok name) ∧ (ofMetadata m).DistinctTypes := by
  have hcheck : (Metadata.read nestedTypes).toOption.any hasNestedTypes = true := by decide +kernel
  obtain ⟨m, hread, h⟩ := exists_of_toOption_any hcheck
  have hfields := h
  simp only [hasNestedTypes, Bool.and_eq_true, beq_iff_eq] at hfields
  obtain ⟨⟨⟨hcount, hnestings⟩, -⟩, hname⟩ := hfields
  have hnested := wellNested_nestedTypes hcount hnestings
  have hdistinct := distinctNames_nestedTypes (Metadata.LaidOut.of_read hread) hnestings h
  obtain ⟨hnamed, htypes⟩ := named_distinctly hread hnested hdistinct
  exact ⟨m, hread, hnested, hdistinct, eq_ok_of_toOption hname, hnamed 4 (by omega) (by omega), htypes⟩

end Assembly

end CilProbe
