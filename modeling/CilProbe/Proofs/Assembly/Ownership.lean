import CilProbe.Proofs.Assembly.Methods
import Mathlib.Data.List.Sort

/-!
# Who owns a member

A row of a type or a method says only where the list of its members begins; the list ends where that of the next row
begins, and the last one ends with the table.  If the beginnings ascend, the lists part the table: a member from the
first beginning on belongs to the last row whose list begins at or before it, and to no other (`members_partitioned`).
Everything is derived from one fact about lists of this kind, `contains_listRange_iff`.
-/

namespace CilProbe

namespace Metadata

/-! ### Lists of members -/

/-- The last row whose list begins at or before a member. -/
def lastListing (m : Metadata) (owners : Table) (column : String) (member : Nat) : Option Nat :=
  ((m.rows owners).filter fun row => row.column column ≤ member).getLast?.map (·.rid)

/-- The lists begin one behind the other.  Each begins with a member, or behind the last one. -/
structure ListsInOrder (m : Metadata) (owners : Table) (column : String) (members : Table) : Prop where
  ascending : (m.rows owners).Pairwise fun row next => row.column column ≤ next.column column
  bounded : ∀ row ∈ m.rows owners, 1 ≤ row.column column ∧ row.column column ≤ m.rowCount members + 1

instance (m : Metadata) (owners : Table) (column : String) (members : Table) :
    Decidable (m.ListsInOrder owners column members) :=
  decidable_of_iff (_ ∧ _) ⟨fun h => ⟨h.1, h.2⟩, fun h => ⟨h.ascending, h.bounded⟩⟩

/-- From the first beginning on each member has an owner, and before it none has one.  A row owns nothing if the list of
the next row begins where its own does. -/
structure ListsPart (m : Metadata) (owners : Table) (column : String) : Prop where
  owned : ∀ first ∈ (m.rows owners).head?, ∀ member,
    (∃ owner, m.lastListing owners column member = some owner) ↔ first.column column ≤ member
  empty : ∀ rid row next, m.row owners rid = .ok row → m.row owners (rid + 1) = .ok next →
    row.column column = next.column column → ∀ member, m.lastListing owners column member ≠ some rid

/-- The parameters of a method, in order. -/
def ownParameters (m : Metadata) (rid : Nat) : List Row :=
  (m.rows .param).filter fun row => m.lastListing .methodDef "ParamList" row.rid = some rid

/-- The names of the places from the first up to the last that parameters have.  Where several parameters have one
place, the last one counts; where none has it, the name is empty. -/
def namesByPlace (m : Metadata) (parameters : List Row) : List String :=
  (List.range' 1 (largest (parameters.map (·.column "Sequence")))).map fun place =>
    match (parameters.filter (·.column "Sequence" = place)).getLast? with
    | some row => m.string (row.column "Name")
    | none => ""

end Metadata

open Metadata (Table Row)

/-- Each member belongs to the last type whose list begins at or before it. -/
structure Ownership.Partitions (o : Ownership) (m : Metadata) (column : String) (members : Table) : Prop where
  owner? : ∀ member owner, o.owner? member = some owner ↔
    member ≤ m.rowCount members ∧ m.lastListing .typeDef column member = some owner
  entries : ∀ member owner, (member, owner) ∈ o.toList (m.rowCount members) ↔
    member ≤ m.rowCount members ∧ m.lastListing .typeDef column member = some owner
  /-- From the first beginning on, each member lies in one range. -/
  unique : ∀ first ∈ (m.rows .typeDef).head?, ∀ member, first.column column ≤ member → member ≤ m.rowCount members →
    ∃! range, range ∈ o ∧ range.contains member

/-! ### Beginnings in order -/

private theorem getLast?_filter_range' (n : Nat) (p : Nat → Bool) (i : Nat) :
    ((List.range' 1 n).filter p).getLast? = some i ↔
      1 ≤ i ∧ i ≤ n ∧ p i ∧ ∀ j, i < j → j ≤ n → ¬p j := by
  induction n with
  | zero =>
    rw [List.range'_zero, List.filter_nil, List.getLast?_nil]
    exact ⟨nofun, fun h => by omega⟩
  | succ n ih =>
    rw [List.range'_1_concat, List.filter_append, List.getLast?_append, Nat.add_comm 1 n]
    -- The number that is added is the last one, unless it is left out.
    by_cases hp : p (n + 1)
    · rw [List.filter_cons_of_pos hp, List.filter_nil, List.getLast?_singleton, Option.some_or, Option.some.injEq]
      constructor
      · rintro rfl
        exact ⟨by omega, Nat.le_refl _, hp, fun j hj hjn => by omega⟩
      · rintro ⟨-, hi, -, hlast⟩
        have : ¬i < n + 1 := fun hlt => hlast (n + 1) hlt (Nat.le_refl _) hp
        omega
    · rw [List.filter_cons_of_neg hp, List.filter_nil, List.getLast?_nil, Option.none_or, ih]
      constructor
      · rintro ⟨hpos, hi, hpi, hlast⟩
        refine ⟨hpos, by omega, hpi, fun j hj hjn => ?_⟩
        obtain rfl | hjn : j = n + 1 ∨ j ≤ n := by omega
        · exact hp
        · exact hlast j hj hjn
      · rintro ⟨hpos, hi, hpi, hlast⟩
        have hne : i ≠ n + 1 := by
          rintro rfl
          exact hp hpi
        exact ⟨hpos, by omega, hpi, fun j hj hjn => hlast j hj (by omega)⟩

section

variable {n count : Nat} {start : Nat → Nat}

/-- The range of the list with a number, of `n` that begin at `start`. -/
private def listRange (n count : Nat) (start : Nat → Nat) (i : Nat) : OwnedRange :=
  ⟨i, start i, min (if i < n then start (i + 1) else count + 1) (count + 1)⟩

private theorem ofStarts_eq (n count : Nat) (start : Nat → Nat) :
    Ownership.ofStarts count ((List.range' 1 n).map fun i => (i, start i)) =
      ((List.range' 1 n).map (listRange n count start)).reverse := by
  rw [Ownership.ofStarts, List.reverse_inj]
  refine List.ext_getElem ?_ fun i hi hi' => ?_
  · simp
    omega
  · rw [List.length_map, List.length_range'] at hi'
    simp only [List.getElem_map, List.getElem_zip, List.getElem_range', listRange, List.getElem_append,
      List.length_map, List.length_drop, List.length_range', List.getElem_drop]
    -- Only the last list has no next one and ends with the table.
    split
    · have hnext : 1 + 1 * (1 + i) = 1 + 1 * i + 1 := by omega
      rw [hnext, if_pos (by omega)]
    · rw [if_neg (by omega), List.getElem_singleton]

/-- The last list that begins at or before a member. -/
private def lastStart (n : Nat) (start : Nat → Nat) (member : Nat) : Option Nat :=
  ((List.range' 1 n).filter fun i => start i ≤ member).getLast?

private theorem lastStart_eq_some_iff {member i : Nat} : lastStart n start member = some i ↔
    1 ≤ i ∧ i ≤ n ∧ start i ≤ member ∧ ∀ j, i < j → j ≤ n → member < start j := by
  rw [lastStart, getLast?_filter_range']
  simp only [decide_eq_true_eq, Nat.not_le]

private theorem mem_ofStarts_iff {range : OwnedRange} :
    range ∈ Ownership.ofStarts count ((List.range' 1 n).map fun i => (i, start i)) ↔
      ∃ i, 1 ≤ i ∧ i ≤ n ∧ range = listRange n count start i := by
  rw [ofStarts_eq, List.mem_reverse, List.mem_map]
  constructor
  · rintro ⟨i, hi, rfl⟩
    rw [List.mem_range'_1] at hi
    exact ⟨i, by omega, by omega, rfl⟩
  · rintro ⟨i, hpos, hi, rfl⟩
    exact ⟨i, List.mem_range'_1.2 (by omega), rfl⟩

variable (hstart : ∀ i j, 1 ≤ i → i ≤ j → j ≤ n → start i ≤ start j)
include hstart

private theorem exists_lastStart_iff (hn : 1 ≤ n) (member : Nat) :
    (∃ i, lastStart n start member = some i) ↔ start 1 ≤ member := by
  constructor
  · rintro ⟨i, hi⟩
    obtain ⟨hpos, hin, hbegin, -⟩ := lastStart_eq_some_iff.1 hi
    exact Nat.le_trans (hstart 1 i (Nat.le_refl _) hpos hin) hbegin
  · intro hbegin
    have hmem : 1 ∈ (List.range' 1 n).filter fun i => start i ≤ member :=
      List.mem_filter.2 ⟨List.mem_range'_1.2 (by omega), decide_eq_true hbegin⟩
    exact ⟨_, List.getLast?_eq_some_getLast (List.ne_nil_of_mem hmem)⟩

/-- The list with the number `i` contains a member if it is the last one that begins at or before the member. -/
private theorem contains_listRange_iff {i : Nat} (hpos : 1 ≤ i) (hi : i ≤ n) (member : Nat) :
    (listRange n count start i).contains member ↔ member ≤ count ∧ lastStart n start member = some i := by
  rw [lastStart_eq_some_iff, OwnedRange.contains, listRange]
  simp only [Bool.and_eq_true, decide_eq_true_eq, Nat.lt_min]
  constructor
  · rintro ⟨hbegin, hstop, hmember⟩
    -- The range ends where the next one begins, and the later ones begin no earlier.
    refine ⟨by omega, hpos, hi, hbegin, fun j hj hjn => ?_⟩
    rw [if_pos (by omega)] at hstop
    exact Nat.lt_of_lt_of_le hstop (hstart (i + 1) j (by omega) hj hjn)
  · rintro ⟨hmember, -, -, hbegin, hlast⟩
    refine ⟨hbegin, ?_, by omega⟩
    split
    · next hlt => exact hlast (i + 1) (by omega) hlt
    · omega

private theorem owner?_ofStarts_eq_some_iff (member i : Nat) :
    (Ownership.ofStarts count ((List.range' 1 n).map fun i => (i, start i))).owner? member = some i ↔
      member ≤ count ∧ lastStart n start member = some i := by
  have howners : OwnedRange.owner ∘ listRange n count start = id := rfl
  rw [ofStarts_eq, Ownership.owner?, ← List.getLast?_filter, List.filter_map, List.getLast?_map, Option.map_map,
    howners, Option.map_id, id, getLast?_filter_range']
  constructor
  · rintro ⟨hpos, hi, hcontains, -⟩
    exact (contains_listRange_iff hstart hpos hi member).1 hcontains
  · rintro ⟨hmember, hlast⟩
    obtain ⟨hpos, hi, -⟩ := lastStart_eq_some_iff.1 hlast
    refine ⟨hpos, hi, (contains_listRange_iff hstart hpos hi member).2 ⟨hmember, hlast⟩, fun j hj hjn hcontains => ?_⟩
    have hlast' := ((contains_listRange_iff hstart (by omega) hjn member).1 hcontains).2
    rw [hlast, Option.some.injEq] at hlast'
    omega

/-- From the first beginning on, the ranges part the members. -/
private theorem existsUnique_ofStarts {member : Nat} (hn : 1 ≤ n) (hbegin : start 1 ≤ member)
    (hmember : member ≤ count) :
    ∃! range, range ∈ Ownership.ofStarts count ((List.range' 1 n).map fun i => (i, start i)) ∧
      range.contains member := by
  obtain ⟨i, hi⟩ := (exists_lastStart_iff hstart hn member).2 hbegin
  obtain ⟨hpos, hin, -⟩ := lastStart_eq_some_iff.1 hi
  refine ⟨listRange n count start i, ⟨mem_ofStarts_iff.2 ⟨i, hpos, hin, rfl⟩, ?_⟩, ?_⟩
  · exact (contains_listRange_iff hstart hpos hin member).2 ⟨hmember, hi⟩
  · rintro range ⟨hrange, hcontains⟩
    obtain ⟨j, hpos', hjn, rfl⟩ := mem_ofStarts_iff.1 hrange
    have hj := ((contains_listRange_iff hstart hpos' hjn member).1 hcontains).2
    rw [hi, Option.some.injEq] at hj
    rw [hj]

end

/-! ### Tables of owners -/

section

variable {m : Metadata} {owners members : Table} {column : String} {f : Nat → Row}

/-- What a table of owners says, by the numbers of its rows. -/
private theorem lastListing_eq (column : String) (hrid : ∀ rid, (f rid).rid = rid)
    (hrows : m.rows owners = (List.range' 1 (m.rowCount owners)).map f) (member : Nat) :
    m.lastListing owners column member = lastStart (m.rowCount owners) (fun rid => (f rid).column column) member := by
  have hnumbers : (fun row => row.rid) ∘ f = id := funext hrid
  rw [Metadata.lastListing, hrows, List.filter_map, List.getLast?_map, Option.map_map, hnumbers, Option.map_id, id]
  rfl

private theorem start_le (hrows : m.rows owners = (List.range' 1 (m.rowCount owners)).map f)
    (hlists : m.ListsInOrder owners column members) (i j : Nat) (hpos : 1 ≤ i) (hij : i ≤ j)
    (hj : j ≤ m.rowCount owners) : (f i).column column ≤ (f j).column column := by
  have hascending := hlists.ascending
  rw [hrows, List.pairwise_map, List.pairwise_iff_getElem] at hascending
  obtain rfl | hlt := Nat.eq_or_lt_of_le hij
  · exact Nat.le_refl _
  · have hle := hascending (i - 1) (j - 1) (by rw [List.length_range']; omega) (by rw [List.length_range']; omega)
      (by omega)
    rwa [List.getElem_range', List.getElem_range', Nat.one_mul, Nat.one_mul, Nat.add_sub_cancel' hpos,
      Nat.add_sub_cancel' (by omega)] at hle

private theorem eq_of_head? (hrows : m.rows owners = (List.range' 1 (m.rowCount owners)).map f) {first : Row}
    (h : first ∈ (m.rows owners).head?) : 1 ≤ m.rowCount owners ∧ first = f 1 := by
  rw [hrows, List.head?_map, List.head?_range'] at h
  split at h
  · contradiction
  · cases h
    exact ⟨by omega, rfl⟩

theorem listsPart (h : m.LaidOut) (hlists : m.ListsInOrder owners column members) : m.ListsPart owners column := by
  obtain ⟨f, hrid, hrows, hrow⟩ := h.exists_rows_eq_map owners
  have hstart := start_le hrows hlists
  have hlast (member : Nat) := lastListing_eq column hrid hrows member
  refine ⟨?owned, ?empty⟩
  case owned =>
    intro first hfirst member
    obtain ⟨hn, rfl⟩ := eq_of_head? hrows hfirst
    rw [hlast]
    exact exists_lastStart_iff hstart hn member
  case empty =>
    intro rid row next hfound hnext hsame member hmember
    obtain ⟨hpos, -⟩ := (h.exists_row_eq_ok_iff _ _).1 ⟨row, hfound⟩
    obtain ⟨-, hin⟩ := (h.exists_row_eq_ok_iff _ _).1 ⟨next, hnext⟩
    rw [hrow rid hpos (by omega), Except.ok.injEq] at hfound
    rw [hrow (rid + 1) (by omega) hin, Except.ok.injEq] at hnext
    rw [← hfound, ← hnext] at hsame
    rw [hlast, lastStart_eq_some_iff] at hmember
    obtain ⟨-, -, hbegin, hlater⟩ := hmember
    have hlt := hlater (rid + 1) (by omega) hin
    omega

theorem partitions_ownership (h : m.LaidOut) (hlists : m.ListsInOrder .typeDef column members) :
    (Assembly.ownership m column members).Partitions m column members := by
  obtain ⟨f, hrid, hrows, hrow⟩ := h.exists_rows_eq_map .typeDef
  have hstart := start_le hrows hlists
  have hlast (member : Nat) := lastListing_eq column hrid hrows member
  have howned : Assembly.ownership m column members = .ofStarts (m.rowCount members)
      ((List.range' 1 (m.rowCount .typeDef)).map fun rid => (rid, (f rid).column column)) := by
    rw [Assembly.ownership, hrows, List.map_map]
    congr 2
    funext rid
    rw [Function.comp_apply, hrid]
  have howner (member owner : Nat) : (Assembly.ownership m column members).owner? member = some owner ↔
      member ≤ m.rowCount members ∧ m.lastListing .typeDef column member = some owner := by
    rw [howned, hlast]
    exact owner?_ofStarts_eq_some_iff hstart member owner
  refine ⟨howner, ?entries, ?unique⟩
  case entries =>
    intro member owner
    rw [← howner, Ownership.toList, List.mem_filterMap]
    constructor
    · rintro ⟨rid, -, hentry⟩
      obtain ⟨owner', howner', hpair⟩ := Option.map_eq_some_iff.1 hentry
      cases hpair
      exact howner'
    · intro howner'
      have hmember := ((howner member owner).1 howner').1
      exact ⟨member, List.mem_range.2 (by omega), by rw [howner']; rfl⟩
  case unique =>
    intro first hfirst member hbegin hmember
    obtain ⟨hn, rfl⟩ := eq_of_head? hrows hfirst
    rw [howned]
    exact existsUnique_ofStarts hstart hn hbegin hmember

/-! ### Parameters -/

/-- The members of a range are those that it contains. -/
private theorem filter_contains {count : Nat} {range : OwnedRange} (hfirst : 1 ≤ range.first)
    (hstop : range.stop ≤ count + 1) :
    (List.range' 1 count).filter (range.contains ·) = List.range' range.first (range.stop - range.first) := by
  have hsorted (first size : Nat) : (List.range' first size).Pairwise (· < ·) := List.pairwise_lt_range' 1
  refine ((hsorted _ _).filter _).eq_of_mem_iff (hsorted _ _) fun member => ?_
  rw [List.mem_filter, List.mem_range'_1, List.mem_range'_1, OwnedRange.contains, Bool.and_eq_true, decide_eq_true_eq,
    decide_eq_true_eq]
  omega

/-- In a list that is searched from its end, the last entry with a key is found. -/
private theorem lookup_reverse_map {α β : Type} (key : α → Nat) (value : α → β) (l : List α) (k : Nat) :
    ((l.map fun a => (key a, value a)).reverse).lookup k = (l.filter (key · = k)).getLast?.map value := by
  have hlookup (l : List α) : (l.map fun a => (key a, value a)).lookup k = (l.filter (key · = k)).head?.map value := by
    induction l with
    | nil => rfl
    | cons a l ih =>
      rw [List.map_cons, List.lookup_cons]
      by_cases h : key a = k
      · rw [List.filter_cons_of_pos (by simpa using h), h, beq_self_eq_true]
        rfl
      · rw [List.filter_cons_of_neg (by simpa using h), beq_eq_false_iff_ne.2 (Ne.symm h), ih]
  rw [← List.map_reverse, hlookup, List.filter_reverse, List.head?_reverse]

private theorem namesByPlace_eq (m : Metadata) (rows : List Row) :
    let named := ((rows.filter fun row => 0 < row.column "Sequence").map fun row =>
      (row.column "Sequence", m.string (row.column "Name"))).reverse
    (List.range' 1 (Metadata.largest (named.map (·.1)))).map (fun place => (named.lookup place).getD "") =
      m.namesByPlace rows := by
  intro named
  have hlargest : Metadata.largest (named.map (·.1)) = Metadata.largest (rows.map (·.column "Sequence")) := by
    refine eq_of_forall_le_iff fun n => ?_
    obtain rfl | hn := Nat.eq_zero_or_pos n
    · simp only [Nat.zero_le]
    · rw [Metadata.le_largest_iff hn, Metadata.le_largest_iff hn]
      simp only [named, List.mem_map, List.mem_reverse, List.mem_filter, decide_eq_true_eq, exists_exists_and_eq_and]
      constructor
      · rintro ⟨row, ⟨hrow, -⟩, hle⟩
        exact ⟨row, hrow, hle⟩
      · rintro ⟨row, hrow, hle⟩
        exact ⟨row, ⟨hrow, by omega⟩, hle⟩
  rw [hlargest, Metadata.namesByPlace]
  refine List.map_congr_left fun place hplace => ?_
  rw [List.mem_range'_1] at hplace
  have hnamed : (rows.filter fun row => 0 < row.column "Sequence").filter (·.column "Sequence" = place) =
      rows.filter (·.column "Sequence" = place) := by
    rw [List.filter_filter]
    refine List.filter_congr fun row _ => ?_
    rw [Bool.eq_iff_iff, Bool.and_eq_true, decide_eq_true_eq, decide_eq_true_eq]
    omega
  rw [lookup_reverse_map, hnamed]
  cases ((rows.filter (·.column "Sequence" = place)).getLast?) <;> rfl

private theorem parameterNames_of_rows {a : Assembly} {rid first stop : Nat} {rows : List Row}
    (hstop : (if rid < a.metadata.rowCount .methodDef then
        (a.metadata.row .methodDef (rid + 1)).map (·.column "ParamList")
      else pure (a.metadata.rowCount .param + 1)) = .ok stop)
    (hrows : (List.range' first (min stop (a.metadata.rowCount .param + 1) - first)).mapM (a.metadata.row .param) =
      .ok rows) : a.parameterNames rid first = .ok (a.metadata.namesByPlace rows) := by
  rw [Assembly.parameterNames, ← namesByPlace_eq]
  by_cases hlast : rid < a.metadata.rowCount .methodDef
  · rw [if_pos hlast] at hstop ⊢
    simp only [hstop, hrows, bind, Except.bind]
    rfl
  · rw [if_neg hlast] at hstop ⊢
    simp only [hstop, hrows, bind, Except.bind]
    rfl

theorem parameterNames_eq {a : Assembly} (h : a.metadata.LaidOut)
    (hlists : a.metadata.ListsInOrder .methodDef "ParamList" .param) {rid : Nat} {row : Row}
    (hfound : a.metadata.row .methodDef rid = .ok row) :
    a.parameterNames rid (row.column "ParamList") =
      .ok (a.metadata.namesByPlace (a.metadata.ownParameters rid)) := by
  obtain ⟨f, hnumber, hrows, hrow⟩ := h.exists_rows_eq_map .methodDef
  obtain ⟨g, hnumber', hparams, hparam⟩ := h.exists_rows_eq_map .param
  obtain ⟨hpos, hrid⟩ := (h.exists_row_eq_ok_iff _ _).1 ⟨row, hfound⟩
  obtain rfl : f rid = row := Except.ok.inj ((hrow rid hpos hrid).symm.trans hfound)
  have hstart := start_le hrows hlists
  let range := listRange (a.metadata.rowCount .methodDef) (a.metadata.rowCount .param)
    (fun rid => (f rid).column "ParamList") rid
  obtain ⟨hfirst, -⟩ := hlists.bounded (f rid) (hrows ▸ List.mem_map_of_mem (List.mem_range'_1.2 (by omega)))
  -- The method owns the parameters of its range, and these are the ones that are looked up.
  have hown : a.metadata.ownParameters rid = (List.range' range.first (range.stop - range.first)).map g := by
    rw [Metadata.ownParameters, hparams, List.filter_map, ← filter_contains hfirst (Nat.min_le_right ..)]
    refine congrArg (List.map g) (List.filter_congr fun member hmember => ?_)
    rw [List.mem_range'_1] at hmember
    rw [Function.comp_apply, hnumber', lastListing_eq "ParamList" hnumber hrows, Bool.eq_iff_iff, decide_eq_true_eq,
      contains_listRange_iff hstart hpos hrid]
    exact ⟨fun hlast => ⟨by omega, hlast⟩, And.right⟩
  have hlooked : (List.range' range.first (range.stop - range.first)).mapM (a.metadata.row .param) =
      .ok ((List.range' range.first (range.stop - range.first)).map g) := by
    refine mapM_eq_pure fun member hmember => ?_
    have hmax : range.stop ≤ a.metadata.rowCount .param + 1 := Nat.min_le_right ..
    have hbegin : 1 ≤ range.first := hfirst
    rw [List.mem_range'_1] at hmember
    exact hparam member (by omega) (by omega)
  have hstop : (if rid < a.metadata.rowCount .methodDef then
        (a.metadata.row .methodDef (rid + 1)).map (·.column "ParamList")
      else pure (a.metadata.rowCount .param + 1)) =
      .ok (if rid < a.metadata.rowCount .methodDef then (f (rid + 1)).column "ParamList"
        else a.metadata.rowCount .param + 1) := by
    split
    · next hlt =>
      rw [hrow (rid + 1) (by omega) hlt]
      rfl
    · rfl
  rw [hown]
  exact parameterNames_of_rows hstop hlooked

end

/-! ### Methods, fields and parameters -/

namespace Assembly

/-- If lists of members are in order, they part the methods and the fields among the types, and the parameters among the
methods.  The names of the parameters of a method are those of its own parameters, and no parameter is one of two
methods. -/
theorem members_partitioned {data : Buffer} {metadata : Metadata} (hread : Metadata.read data = .ok metadata)
    (hmethods : metadata.ListsInOrder .typeDef "MethodList" .methodDef)
    (hfields : metadata.ListsInOrder .typeDef "FieldList" .field)
    (hparams : metadata.ListsInOrder .methodDef "ParamList" .param) :
    (metadata.ListsPart .typeDef "MethodList" ∧ metadata.ListsPart .typeDef "FieldList" ∧
        metadata.ListsPart .methodDef "ParamList") ∧
      (ofMetadata metadata).methodOwners.Partitions metadata "MethodList" .methodDef ∧
      (ofMetadata metadata).fieldOwners.Partitions metadata "FieldList" .field ∧
      (∀ rid row, metadata.row .methodDef rid = .ok row →
        (ofMetadata metadata).parameterNames rid (row.column "ParamList") =
          .ok (metadata.namesByPlace (metadata.ownParameters rid))) ∧
      ∀ rid other, ∀ param ∈ metadata.ownParameters rid, param ∈ metadata.ownParameters other → rid = other := by
  have h := Metadata.LaidOut.of_read hread
  refine ⟨⟨listsPart h hmethods, listsPart h hfields, listsPart h hparams⟩, partitions_ownership h hmethods,
    partitions_ownership h hfields, ?names, ?disjoint⟩
  case names =>
    intro rid row hrow
    exact parameterNames_eq (a := ofMetadata metadata) h hparams hrow
  case disjoint =>
    intro rid other param hown hother
    have hlast := of_decide_eq_true (List.mem_filter.1 hown).2
    have hlast' := of_decide_eq_true (List.mem_filter.1 hother).2
    exact Option.some.inj (hlast.symm.trans hlast')

/-- Metadata with four types, two fields, five methods and five parameters.  Some lists are empty, the first method is
in none, two parameters of the fourth method have its third place, and the only one of the fifth has no place. -/
private def partedMembers : Buffer :=
  #[0x42, 0x53, 0x4A, 0x42, 1, 0, 1, 0, 0, 0, 0, 0, 4, 0, 0, 0, 0x76, 0x34, 0, 0, 0, 0, 2, 0,
    0x38, 0, 0, 0, 0xD0, 0, 0, 0, 0x23, 0x7E, 0, 0,
    8, 1, 0, 0, 0xB, 0, 0, 0, 0x23, 0x53, 0x74, 0x72, 0x69, 0x6E, 0x67, 0x73, 0, 0, 0, 0,
    0, 0, 0, 0, 2, 0, 0, 1, 0x54, 1, 0, 0, 0, 0, 0, 0, 0, 0, 0, 0, 0, 0, 0, 0,
    4, 0, 0, 0, 2, 0, 0, 0, 5, 0, 0, 0, 5, 0, 0, 0,
    0, 0, 0, 0, 0, 0, 0, 0, 0, 0, 1, 0, 2, 0,
    0, 0, 0, 0, 0, 0, 0, 0, 0, 0, 1, 0, 2, 0,
    0, 0, 0, 0, 0, 0, 0, 0, 0, 0, 1, 0, 3, 0,
    0, 0, 0, 0, 0, 0, 0, 0, 0, 0, 3, 0, 5, 0,
    0, 0, 0, 0, 0, 0,
    0, 0, 0, 0, 0, 0,
    0, 0, 0, 0, 0, 0, 0, 0, 0, 0, 0, 0, 1, 0,
    0, 0, 0, 0, 0, 0, 0, 0, 0, 0, 0, 0, 1, 0,
    0, 0, 0, 0, 0, 0, 0, 0, 0, 0, 0, 0, 3, 0,
    0, 0, 0, 0, 0, 0, 0, 0, 0, 0, 0, 0, 3, 0,
    0, 0, 0, 0, 0, 0, 0, 0, 0, 0, 0, 0, 5, 0,
    0, 0, 2, 0, 3, 0,
    0, 0, 1, 0, 1, 0,
    0, 0, 3, 0, 5, 0,
    0, 0, 3, 0, 7, 0,
    0, 0, 0, 0, 9, 0,
    0, 0x61, 0, 0x62, 0, 0x78, 0, 0x79, 0, 0x72, 0]

private def isParted (metadata : Metadata) : Bool :=
  decide (metadata.ListsInOrder .typeDef "MethodList" .methodDef) &&
    decide (metadata.ListsInOrder .typeDef "FieldList" .field) &&
    decide (metadata.ListsInOrder .methodDef "ParamList" .param) &&
    (ofMetadata metadata).methodOwners.toList 5 == [(2, 2), (3, 3), (4, 3), (5, 4)] &&
    (metadata.row .methodDef 4).toOption.map (·.column "ParamList") == some 3 &&
    metadata.namesByPlace (metadata.ownParameters 4) == ["", "", "y"]

private theorem read_partedMembers : ∃ metadata, Metadata.read partedMembers = .ok metadata ∧ isParted metadata :=
  exists_of_toOption_any (by decide +kernel)

theorem members_partitioned_partedMembers :
    ∃ metadata, Metadata.read partedMembers = .ok metadata ∧
      metadata.ListsInOrder .typeDef "MethodList" .methodDef ∧ metadata.ListsInOrder .typeDef "FieldList" .field ∧
      metadata.ListsInOrder .methodDef "ParamList" .param ∧
      (ofMetadata metadata).methodOwners.Partitions metadata "MethodList" .methodDef ∧
      (ofMetadata metadata).fieldOwners.Partitions metadata "FieldList" .field ∧
      (ofMetadata metadata).methodOwners.toList 5 = [(2, 2), (3, 3), (4, 3), (5, 4)] ∧
      (ofMetadata metadata).parameterNames 4 3 = .ok ["", "", "y"] := by
  obtain ⟨metadata, hread, hparted⟩ := read_partedMembers
  simp only [isParted, Bool.and_eq_true, decide_eq_true_eq, beq_iff_eq] at hparted
  obtain ⟨⟨⟨⟨⟨hmethods, hfields⟩, hparams⟩, howners⟩, hlist⟩, hnames⟩ := hparted
  obtain ⟨-, hmethodOwners, hfieldOwners, hparameters, -⟩ := members_partitioned hread hmethods hfields hparams
  obtain ⟨row, hrow, hbegin⟩ := Option.map_eq_some_iff.1 hlist
  have hfourth := hparameters 4 row (eq_ok_of_toOption hrow)
  rw [hnames, hbegin] at hfourth
  exact ⟨metadata, hread, hmethods, hfields, hparams, hmethodOwners, hfieldOwners, howners, hfourth⟩

end Assembly

end CilProbe
