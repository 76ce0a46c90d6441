import CilProbe.Proofs.Metadata.Layout

/-!
# Accepted metadata

Bytes are either refused as metadata, for one of the reasons that the headers can give, or they are accepted, and then
nothing that is read from the tables later lies outside the data (`read_refused_or_readable`).  The tables of accepted
metadata stand one behind the other in their order (`Consecutive`), so that they share no bytes, and the size check at
the end of the headers covers all of them.
-/

namespace CilProbe.Metadata

/-! ### Refusal -/

/-- The reasons for which bytes are refused as metadata.  The other ones concern images. -/
def FormatError.OfHeaders : FormatError → Prop
  | truncated | badSignature _ | unterminatedName | noTables | tablesTooLarge => True
  | unknownTable index => Table.all.length ≤ index ∧ index < 64
  | _ => False

private theorem header_fails (data : Buffer) (offset width : Nat) :
    OnlyFails FormatError.OfHeaders (header data offset width) := by
  rw [header]
  split
  · exact .ok _
  · exact .error trivial

private theorem readStreams_fails (data : Buffer) (count offset : Nat) (streams : List (String × Stream)) :
    OnlyFails FormatError.OfHeaders (readStreams data count offset streams) := by
  induction count generalizing offset streams with
  | zero => exact .ok _
  | succ count ih =>
    rw [readStreams]
    refine (header_fails _ _ _).bind fun _ => (header_fails _ _ _).bind fun _ => ?_
    dsimp only
    split
    · exact .error trivial
    · exact ih _ _

private theorem readCounts_fails (data : Buffer) (valid left offset : Nat) (hleft : left ≤ 64) :
    OnlyFails FormatError.OfHeaders (readCounts data valid left offset) := by
  induction left generalizing offset with
  | zero => exact .ok _
  | succ left ih =>
    rw [readCounts]
    dsimp only
    split
    · exact ih offset (by omega)
    · split
      · next hunknown =>
        refine .error ⟨?_, by omega⟩
        exact List.getElem?_eq_none_iff.1 hunknown
      · exact (header_fails _ _ _).bind fun _ => (ih _ (by omega)).bind fun _ => .pure _

private theorem read_fails (data : Buffer) : OnlyFails FormatError.OfHeaders (read data) := by
  rw [read]
  split
  · exact .error trivial
  refine (header_fails _ _ _).bind fun signature => ?_
  split
  · exact .error trivial
  refine (header_fails _ _ _).bind fun versionLength => (header_fails _ _ _).bind fun streamCount =>
    (readStreams_fails _ _ _ _).bind fun streams => ?_
  split
  · exact .error trivial
  split
  · exact .error trivial
  refine (header_fails _ _ _).bind fun heapSizes => (header_fails _ _ _).bind fun valid =>
    (readCounts_fails _ _ _ _ (Nat.le_refl 64)).bind ?_
  rintro ⟨counts, offset⟩
  dsimp only
  generalize (if heapSizes &&& extraFlag ≠ 0 then _ else _) = start
  split
  · exact .error trivial
  · exact .pure _

/-! ### Places of the tables -/

/-- The offset behind the last row of a table. -/
def TableLayout.stop (layout : TableLayout) : Nat := layout.offset + layout.rows * layout.rowSize

/-- Tables one behind the other from an offset on. -/
def Consecutive : (offset : Nat) → List TableLayout → Prop
  | _, [] => True
  | offset, layout :: layouts => layout.offset = offset ∧ Consecutive layout.stop layouts

theorem consecutive_layoutTables (heapSizes : Nat) (counts : RowCounts) (offset : Nat) (rest : RowCounts) :
    Consecutive offset (layoutTables heapSizes counts offset rest).1 := by
  induction rest generalizing offset with
  | nil => trivial
  | cons entry rest ih =>
    refine ⟨rfl, ?_⟩
    rw [TableLayout.stop, Nat.mul_comm]
    exact ih _

theorem Consecutive.le {offset : Nat} {layouts : List TableLayout} (h : Consecutive offset layouts) :
    ∀ layout ∈ layouts, offset ≤ layout.offset := by
  induction layouts generalizing offset with
  | nil => simp
  | cons first layouts ih =>
    obtain ⟨rfl, hrest⟩ := h
    intro layout hlayout
    rcases List.mem_cons.1 hlayout with rfl | hlayout
    · exact Nat.le_refl _
    · exact Nat.le_trans (Nat.le_add_right ..) (ih hrest layout hlayout)

/-- Of two tables one ends before the other begins. -/
theorem Consecutive.disjoint {offset : Nat} {layouts : List TableLayout} (h : Consecutive offset layouts) :
    layouts.Pairwise fun a b => a.stop ≤ b.offset := by
  induction layouts generalizing offset with
  | nil => exact .nil
  | cons first layouts ih => exact .cons h.2.le (ih h.2)

/-! ### Looking up rows -/

/-- The rows of the table of a name; there are none if no table has the name. -/
def rowsOf? (m : Metadata) (tableName : String) : Option (List Row) :=
  match Table.ofName? tableName with
  | some table => m.rows? table
  | none => some []

/-- The number of rows of the table of a name. -/
def rowCountOf (m : Metadata) (tableName : String) : Nat := ((Table.ofName? tableName).map m.rowCount).getD 0

/-- The row with a number among the rows of a table, counted from one. -/
def pick (tableName : String) (rows : List Row) (rid : Int) : Except LookupError Row :=
  if h : 1 ≤ rid ∧ rid ≤ rows.length then .ok (rows.get ⟨(rid - 1).toNat, by omega⟩)
  else .error (.noRow tableName rid)

theorem pick_eq_ok {tableName : String} {rows : List Row} {rid : Nat} {row : Row} (hpos : 1 ≤ rid)
    (h : rows[rid - 1]? = some row) : pick tableName rows rid = .ok row := by
  obtain ⟨hlt, rfl⟩ := List.getElem?_eq_some_iff.1 h
  rw [pick, dif_pos ⟨by omega, by omega⟩]
  simp only [List.get_eq_getElem]
  congr
  omega

theorem exists_pick_eq_ok_iff {tableName : String} {rows : List Row} {rid : Int} :
    (∃ row, pick tableName rows rid = .ok row) ↔ 1 ≤ rid ∧ rid ≤ rows.length := by
  rw [pick]
  split
  · next h => simp [h]
  · next h => simp [h]

theorem pick_eq_error {tableName : String} {rows : List Row} {rid : Int} (h : ¬(1 ≤ rid ∧ rid ≤ rows.length)) :
    pick tableName rows rid = .error (.noRow tableName rid) := dif_neg h

private theorem getElem?_of_mapM_eq_some {α β : Type} {f : α → Option β} {l : List α} {bs : List β}
    (h : l.mapM f = some bs) (i : Nat) : bs[i]? = l[i]?.bind f := by
  induction l generalizing bs i with
  | nil =>
    cases h
    rfl
  | cons a l ih =>
    simp only [List.mapM_cons, Option.bind_eq_bind, Option.bind_eq_some_iff, Option.pure_def, Option.some.injEq] at h
    obtain ⟨b, hb, bs', hbs, rfl⟩ := h
    cases i with
    | zero => simp [hb]
    | succ i => simpa using ih hbs i

/-- Reading a single row finds what reading the whole table finds. -/
theorem row_eq_pick {m : Metadata} {table : Table} {rows : List Row} (hrows : m.rows? table = some rows)
    (hlength : rows.length = m.rowCount table) (rid : Nat) : m.row table rid = pick table.name rows rid := by
  rw [row]
  rw [rows?] at hrows
  rw [rowCount] at hlength
  cases hl : m.layout? table with
  | none =>
    rw [hl] at hlength
    rw [pick_eq_error]
    simp only [Option.map_none, Option.getD_none] at hlength
    omega
  | some layout =>
    simp only [hl, Option.map_some, Option.getD_some] at hrows hlength
    dsimp only
    split
    · next hrid =>
      have hget := getElem?_of_mapM_eq_some hrows (rid - 1)
      have hin : (List.range' 1 layout.rows)[rid - 1]? = some rid := by
        rw [List.getElem?_range' (by omega), Option.some.injEq]
        omega
      obtain ⟨row, hrow⟩ : ∃ row, rows[rid - 1]? = some row := ⟨_, List.getElem?_eq_getElem (by omega)⟩
      rw [hin, hrow, Option.bind_some] at hget
      rw [← hget, pick_eq_ok hrid.1 hrow]
    · rw [pick_eq_error]
      omega

theorem LaidOut.exists_row_eq_ok_iff {m : Metadata} (h : m.LaidOut) (table : Table) (rid : Nat) :
    (∃ row, m.row table rid = .ok row) ↔ 1 ≤ rid ∧ rid ≤ m.rowCount table := by
  obtain ⟨rows, hrows, hlength, -⟩ := h.exists_rows table
  rw [row_eq_pick hrows hlength, exists_pick_eq_ok_iff]
  omega

theorem rowOf_eq_pick {m : Metadata} {tableName : String} {rows : List Row} (hrows : m.rowsOf? tableName = some rows)
    (hlength : rows.length = m.rowCountOf tableName) (rid : Int) : m.rowOf tableName rid = pick tableName rows rid := by
  rw [rowsOf?] at hrows
  rw [rowCountOf] at hlength
  cases htable : Table.ofName? tableName with
  | none =>
    rw [htable] at hrows
    cases hrows
    rw [pick_eq_error (by simp only [List.length_nil]; omega)]
    simp only [rowOf, htable]
  | some table =>
    have hname : table.name = tableName := by simpa using List.find?_some htable
    simp only [htable, Option.map_some, Option.getD_some] at hrows hlength
    cases rid with
    | ofNat rid =>
      rw [← hname] at htable ⊢
      simp only [rowOf, htable]
      exact row_eq_pick hrows hlength rid
    | negSucc n =>
      rw [pick_eq_error (by omega)]
      simp only [rowOf, htable]

/-! ### Acceptance -/

/-- What was read from the headers, so that later reading never leaves the data. -/
structure Readable (m : Metadata) (data : Buffer) : Prop where
  data_eq : m.data = data
  /-- The tables are in the order of their numbers. -/
  ascending : (m.tables.map (·.table.index)).Pairwise (· < ·)
  consecutive : ∃ stream, m.streams.lookup tablesName = some stream ∧ Consecutive (m.tablesStart stream) m.tables
  disjoint : m.tables.Pairwise fun a b => a.stop ≤ b.offset
  inside : ∀ layout ∈ m.tables, layout.stop ≤ data.size
  /-- Each table can be read as a whole, and its rows can be read one by one. -/
  rows (tableName : String) : ∃ rows, m.rowsOf? tableName = some rows ∧ rows.length = m.rowCountOf tableName ∧
    ∀ rid : Int, m.rowOf tableName rid = pick tableName rows rid
  exists_row_iff (tableName : String) (rid : Int) :
    (∃ row, m.rowOf tableName rid = .ok row) ↔ 1 ≤ rid ∧ rid ≤ m.rowCountOf tableName
  no_row (tableName : String) (rid : Int) (h : ¬(1 ≤ rid ∧ rid ≤ m.rowCountOf tableName)) :
    m.rowOf tableName rid = .error (.noRow tableName rid)

private theorem map_index_rowCounts (m : Metadata) :
    m.rowCounts.map (·.1.index) = m.tables.map (·.table.index) := by
  rw [rowCounts, List.map_map]
  rfl

theorem LaidOut.exists_rowsOf {m : Metadata} (h : m.LaidOut) (tableName : String) :
    ∃ rows, m.rowsOf? tableName = some rows ∧ rows.length = m.rowCountOf tableName := by
  rw [rowsOf?, rowCountOf]
  cases Table.ofName? tableName with
  | none => exact ⟨[], rfl, rfl⟩
  | some table =>
    obtain ⟨rows, hrows, hlength, -⟩ := h.exists_rows table
    exact ⟨rows, hrows, hlength⟩

theorem Readable.of_read {data : Buffer} {m : Metadata} (h : read data = .ok m) : m.Readable data := by
  have hlaid := LaidOut.of_read h
  obtain ⟨hdata, hascending, stream, hstream, htables, -⟩ := exists_layout_of_read h
  have hconsecutive : Consecutive (m.tablesStart stream) m.tables := htables ▸ consecutive_layoutTables ..
  have hrows (tableName : String) : ∃ rows, m.rowsOf? tableName = some rows ∧
      rows.length = m.rowCountOf tableName ∧ ∀ rid : Int, m.rowOf tableName rid = pick tableName rows rid := by
    obtain ⟨rows, hrows, hlength⟩ := hlaid.exists_rowsOf tableName
    exact ⟨rows, hrows, hlength, rowOf_eq_pick hrows hlength⟩
  refine ⟨hdata, ?_, ⟨stream, hstream, hconsecutive⟩, hconsecutive.disjoint, ?_, hrows, ?_, ?_⟩
  · rwa [map_index_rowCounts] at hascending
  · intro layout hlayout
    rw [← hdata]
    exact hlaid.inside layout hlayout
  · intro tableName rid
    obtain ⟨rows, -, hlength, hpick⟩ := hrows tableName
    rw [hpick, exists_pick_eq_ok_iff, hlength]
  · intro tableName rid hrid
    obtain ⟨rows, -, hlength, hpick⟩ := hrows tableName
    rw [hpick, pick_eq_error]
    rwa [hlength]

theorem read_refused_or_readable (data : Buffer) :
    (∃ e, read data = .error e ∧ e.OfHeaders) ∨ ∃ m, read data = .ok m ∧ m.Readable data := by
  cases h : read data with
  | error e => exact .inl ⟨e, rfl, read_fails data e h⟩
  | ok m => exact .inr ⟨m, rfl, .of_read h⟩

end CilProbe.Metadata
