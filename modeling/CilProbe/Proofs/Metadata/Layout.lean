import CilProbe.Metadata.Basic
import CilProbe.Proofs.Failure

/-!
# Tables lie inside the data

Metadata is accepted only if its tables end inside the data.  Then every row of every table can be read, with the
columns of its schema (`LaidOut.exists_rows`), and looking up a row fails for no other reason than that there is no
such row (`LaidOut.row`).
-/

namespace CilProbe.Metadata

/-- The tables have the columns of their schemas and end inside the data. -/
structure LaidOut (m : Metadata) : Prop where
  columns : ∀ layout ∈ m.tables, layout.columns = layout.table.columns m.heapSizes m.rowCounts
  inside : ∀ layout ∈ m.tables, layout.offset + layout.rows * layout.rowSize ≤ m.data.size

/-! ### Layouts of accepted metadata -/

private theorem rowCounts_layoutTables (heapSizes : Nat) (counts : RowCounts) (offset : Nat) (rest : RowCounts) :
    (layoutTables heapSizes counts offset rest).1.map (fun layout => (layout.table, layout.rows)) = rest := by
  induction rest generalizing offset with
  | nil => rfl
  | cons entry rest ih => exact congrArg (entry :: ·) (ih _)

private theorem length_layoutTables (heapSizes : Nat) (counts : RowCounts) (offset : Nat) (rest : RowCounts) :
    (layoutTables heapSizes counts offset rest).1.length = rest.length := by
  rw [← List.length_map, rowCounts_layoutTables]

/-- The row counts that were read are in the order of the tables, and each takes four bytes. -/
theorem ascending_of_readCounts {data : Buffer} {valid left offset stop : Nat} {counts : RowCounts} (hleft : left ≤ 64)
    (h : readCounts data valid left offset = .ok (counts, stop)) :
    (counts.map (·.1.index)).Pairwise (· < ·) ∧ (∀ entry ∈ counts, 64 - left ≤ entry.1.index) ∧
      stop = offset + 4 * counts.length := by
  induction left generalizing offset counts stop with
  | zero =>
    cases h
    simp
  | succ left ih =>
    rw [readCounts] at h
    dsimp only at h
    split at h
    · obtain ⟨hascending, hge, hstop⟩ := ih (by omega) h
      refine ⟨hascending, fun entry hentry => ?_, hstop⟩
      have := hge entry hentry
      omega
    · split at h
      · contradiction
      · next table hindex =>
        obtain ⟨rows, -, h⟩ := exists_of_bind_eq_ok h
        obtain ⟨⟨counts', stop'⟩, hcounts, h⟩ := exists_of_bind_eq_ok h
        cases h
        obtain ⟨hascending, hge, hstop⟩ := ih (by omega) hcounts
        rw [Table.ofIndex?_eq_some_iff] at hindex
        refine ⟨List.pairwise_cons.2 ⟨fun n hn => ?_, hascending⟩, fun entry hentry => ?_, ?_⟩
        · obtain ⟨entry, hentry, rfl⟩ := List.mem_map.1 hn
          have := hge entry hentry
          dsimp only at this ⊢
          omega
        · rcases List.mem_cons.1 hentry with rfl | hentry
          · dsimp only
            omega
          · have := hge entry hentry
            omega
        · dsimp only [List.length_cons] at hstop ⊢
          omega

/-- What was read on the way to accepted metadata. -/
theorem exists_of_read {data : Buffer} {m : Metadata} (h : read data = .ok m) :
    m.data = data ∧ ∃ versionLength streamCount stream valid counts offset start,
      header data 12 4 = .ok versionLength ∧ header data (16 + versionLength + 2) 2 = .ok streamCount ∧
      readStreams data streamCount (16 + versionLength + 4) [] = .ok m.streams ∧
      m.streams.lookup tablesName = some stream ∧ readCounts data valid 64 (stream.offset + 24) = .ok (counts, offset) ∧
      (if m.heapSizes &&& extraFlag ≠ 0 then offset + 4 else offset) = start ∧
      (layoutTables m.heapSizes counts start counts).1 = m.tables ∧
      (layoutTables m.heapSizes counts start counts).2 ≤ data.size := by
  rw [read] at h
  split at h
  · contradiction
  obtain ⟨signature, -, h⟩ := exists_of_bind_eq_ok h
  split at h
  · contradiction
  obtain ⟨versionLength, hversion, h⟩ := exists_of_bind_eq_ok h
  obtain ⟨streamCount, hcount, h⟩ := exists_of_bind_eq_ok h
  obtain ⟨streams, hstreams, h⟩ := exists_of_bind_eq_ok h
  split at h
  · contradiction
  next stream hstream =>
  split at h
  · contradiction
  obtain ⟨heapSizes, -, h⟩ := exists_of_bind_eq_ok h
  obtain ⟨valid, -, h⟩ := exists_of_bind_eq_ok h
  obtain ⟨⟨counts, offset⟩, hcounts, h⟩ := exists_of_bind_eq_ok h
  dsimp only at h
  generalize hstart : (if heapSizes &&& extraFlag ≠ 0 then _ else _) = start at h
  split at h
  · contradiction
  · next hstop =>
    cases h
    exact ⟨rfl, versionLength, streamCount, stream, valid, counts, offset, start, hversion, hcount, hstreams, hstream,
      hcounts, hstart, rfl, Nat.not_lt.1 hstop⟩

/-- Where the first table of accepted metadata stands: behind the header of the stream of the tables, the row counts
and, if they are announced, four unused bytes. -/
def tablesStart (m : Metadata) (stream : Stream) : Nat :=
  let stop := stream.offset + 24 + 4 * m.tables.length
  if m.heapSizes &&& extraFlag ≠ 0 then stop + 4 else stop

/-- Accepted metadata has its tables one behind the other in their order, and the last one ends inside the data. -/
theorem exists_layout_of_read {data : Buffer} {m : Metadata} (h : read data = .ok m) :
    m.data = data ∧ (m.rowCounts.map (·.1.index)).Pairwise (· < ·) ∧
      ∃ stream, m.streams.lookup tablesName = some stream ∧
        (layoutTables m.heapSizes m.rowCounts (m.tablesStart stream) m.rowCounts).1 = m.tables ∧
        (layoutTables m.heapSizes m.rowCounts (m.tablesStart stream) m.rowCounts).2 ≤ m.data.size := by
  obtain ⟨hdata, _, _, stream, _, counts, offset, start, -, -, -, hstream, hcounts, hstart, htables, hstop⟩ :=
    exists_of_read h
  obtain ⟨hascending, -, rfl⟩ := ascending_of_readCounts (Nat.le_refl 64) hcounts
  have hrows : m.rowCounts = counts := by rw [rowCounts, ← htables, rowCounts_layoutTables]
  have hbegin : m.tablesStart stream = start := by rw [tablesStart, ← htables, length_layoutTables, ← hstart]
  rw [hrows, hdata]
  exact ⟨rfl, hascending, stream, hstream, hbegin ▸ htables, hbegin ▸ hstop⟩

private theorem le_layoutTables (heapSizes : Nat) (counts : RowCounts) (offset : Nat) (rest : RowCounts) :
    offset ≤ (layoutTables heapSizes counts offset rest).2 := by
  induction rest generalizing offset with
  | nil => exact Nat.le_refl offset
  | cons entry rest ih => exact Nat.le_trans (Nat.le_add_right ..) (ih _)

private theorem mem_layoutTables {heapSizes : Nat} {counts : RowCounts} {offset : Nat} {rest : RowCounts} :
    ∀ layout ∈ (layoutTables heapSizes counts offset rest).1,
      layout.columns = layout.table.columns heapSizes counts ∧
        layout.offset + layout.rows * layout.rowSize ≤ (layoutTables heapSizes counts offset rest).2 := by
  induction rest generalizing offset with
  | nil => simp [layoutTables]
  | cons entry rest ih =>
    intro layout hlayout
    rcases List.mem_cons.1 hlayout with rfl | hlayout
    · refine ⟨rfl, ?_⟩
      rw [Nat.mul_comm]
      exact le_layoutTables ..
    · exact ih layout hlayout

theorem LaidOut.of_read {data : Buffer} {m : Metadata} (h : read data = .ok m) : m.LaidOut := by
  obtain ⟨-, -, stream, -, htables, hstop⟩ := exists_layout_of_read h
  refine ⟨?_, ?_⟩
  · intro layout hlayout
    rw [← htables] at hlayout
    exact (mem_layoutTables layout hlayout).1
  · intro layout hlayout
    rw [← htables] at hlayout
    exact Nat.le_trans (mem_layoutTables layout hlayout).2 hstop

/-! ### Rows of laid out tables -/

private theorem exists_readColumns {data : Buffer} {offset : Nat} {columns : List (String × Nat)}
    (h : offset + columnsSize columns ≤ data.size) :
    ∃ values, readColumns? data offset columns = some values ∧ values.map (·.1) = columns.map (·.1) := by
  induction columns generalizing offset with
  | nil => exact ⟨[], rfl, rfl⟩
  | cons column columns ih =>
    obtain ⟨name, width⟩ := column
    rw [columnsSize] at h
    obtain ⟨value, hvalue⟩ := Option.isSome_iff_exists.1 ((data.field?_isSome_iff offset width).2 (by omega))
    obtain ⟨values, hvalues, hnames⟩ := ih (show offset + width + columnsSize columns ≤ data.size by omega)
    refine ⟨(name, value) :: values, ?_, congrArg (name :: ·) hnames⟩
    rw [readColumns?, hvalue, hvalues]
    rfl

namespace LaidOut

variable {m : Metadata}

/-- The rows of a table that is present are inside the data. -/
theorem exists_row (h : m.LaidOut) {layout : TableLayout} (hl : layout ∈ m.tables) {rid : Nat} (hpos : 1 ≤ rid)
    (hrid : rid ≤ layout.rows) :
    ∃ row, layout.row? m.data rid = some row ∧
      row.table = layout.table ∧ row.rid = rid ∧ row.values.map (·.1) = layout.table.schema.map (·.1) := by
  have hrow : (rid - 1) * layout.rowSize + layout.rowSize ≤ layout.rows * layout.rowSize := by
    rw [← Nat.succ_mul, Nat.succ_eq_add_one, Nat.sub_add_cancel hpos]
    exact Nat.mul_le_mul_right _ hrid
  have hinside : layout.offset + (rid - 1) * layout.rowSize + layout.rowSize ≤ m.data.size := by
    have := h.inside layout hl
    omega
  obtain ⟨values, hvalues, hnames⟩ := exists_readColumns hinside
  refine ⟨⟨layout.table, rid, values⟩, by rw [TableLayout.row?, hvalues]; rfl, rfl, rfl, ?_⟩
  rw [hnames, h.columns layout hl, Table.columns, List.map_map]
  rfl

private theorem mem_of_layout {table : Table} {layout : TableLayout} (h : m.layout? table = some layout) :
    layout ∈ m.tables ∧ layout.table = table :=
  ⟨List.mem_of_find?_eq_some h, by simpa using List.find?_some h⟩

private theorem exists_mapM_eq_some {α β : Type} {f : α → Option β} {P : β → Prop} {l : List α}
    (h : ∀ a ∈ l, ∃ b, f a = some b ∧ P b) : ∃ bs, l.mapM f = some bs ∧ bs.length = l.length ∧ ∀ b ∈ bs, P b := by
  induction l with
  | nil => exact ⟨[], rfl, rfl, by simp⟩
  | cons a l ih =>
    obtain ⟨b, hb, hP⟩ := h a (by simp)
    obtain ⟨bs, hbs, hlength, hPs⟩ := ih fun a ha => h a (by simp [ha])
    exact ⟨b :: bs, by simp [List.mapM_cons, hb, hbs], by simp [hlength], by simpa using ⟨hP, hPs⟩⟩

/-- Every table can be read as a whole. -/
theorem exists_rows (h : m.LaidOut) (table : Table) :
    ∃ rows, m.rows? table = some rows ∧ rows.length = m.rowCount table ∧
      ∀ row ∈ rows, row.table = table ∧ row.values.map (·.1) = table.schema.map (·.1) := by
  rw [rows?, rowCount]
  cases hl : m.layout? table with
  | none => exact ⟨[], rfl, rfl, by simp⟩
  | some layout =>
    obtain ⟨hmem, rfl⟩ := mem_of_layout hl
    have hrows : ∀ rid ∈ List.range' 1 layout.rows, ∃ row, layout.row? m.data rid = some row ∧
        row.table = layout.table ∧ row.values.map (·.1) = layout.table.schema.map (·.1) := by
      intro rid hrid
      obtain ⟨hpos, hle⟩ := List.mem_range'_1.1 hrid
      obtain ⟨row, hrow, htable, -, hnames⟩ := h.exists_row hmem hpos (by omega)
      exact ⟨row, hrow, htable, hnames⟩
    obtain ⟨rows, hrows, hlength, hall⟩ := exists_mapM_eq_some hrows
    exact ⟨rows, hrows, by simpa using hlength, hall⟩

/-- The rows of a table are those that are looked up by number. -/
theorem exists_rows_eq_map (h : m.LaidOut) (table : Table) :
    ∃ f : Nat → Row, (∀ rid, (f rid).rid = rid) ∧ m.rows table = (List.range' 1 (m.rowCount table)).map f ∧
      ∀ rid, 1 ≤ rid → rid ≤ m.rowCount table → m.row table rid = .ok (f rid) := by
  cases hl : m.layout? table with
  | none =>
    have hcount : m.rowCount table = 0 := by rw [rowCount, hl]; rfl
    refine ⟨fun rid => ⟨table, rid, []⟩, fun _ => rfl, ?_, fun rid hpos hle => by omega⟩
    rw [rows, rows?, hl, hcount]
    rfl
  | some layout =>
    have hcount : m.rowCount table = layout.rows := by rw [rowCount, hl]; rfl
    have hrow (rid : Nat) : ∃ row : Row, row.rid = rid ∧
        (1 ≤ rid ∧ rid ≤ layout.rows → layout.row? m.data rid = some row) := by
      by_cases hrid : 1 ≤ rid ∧ rid ≤ layout.rows
      · obtain ⟨row, hrow, -, hnumber, -⟩ := h.exists_row (mem_of_layout hl).1 hrid.1 hrid.2
        exact ⟨row, hnumber, fun _ => hrow⟩
      · exact ⟨⟨table, rid, []⟩, rfl, fun hrid' => absurd hrid' hrid⟩
    choose f hnumber hf using hrow
    rw [hcount]
    refine ⟨f, hnumber, ?_, ?_⟩
    · have hrows : (List.range' 1 layout.rows).mapM (layout.row? m.data) =
          some ((List.range' 1 layout.rows).map f) := by
        refine mapM_eq_pure fun rid hrid => hf rid ?_
        rw [List.mem_range'_1] at hrid
        omega
      rw [rows, rows?, hl]
      dsimp only
      rw [hrows, Option.getD_some]
    · intro rid hpos hle
      rw [Metadata.row, hl]
      dsimp only
      rw [if_pos ⟨hpos, hle⟩, hf rid ⟨hpos, hle⟩]

/-- A row that cannot be looked up does not exist. -/
theorem row (h : m.LaidOut) (table : Table) (rid : Nat) : OnlyFails (· = .noRow table.name rid) (m.row table rid) := by
  rw [Metadata.row]
  split
  · next layout hl =>
    split
    · next hrid =>
      obtain ⟨row, hrow, -⟩ := h.exists_row (mem_of_layout hl).1 hrid.1 hrid.2
      rw [hrow]
      exact .ok row
    · exact .error rfl
  · exact .error rfl

end LaidOut

end CilProbe.Metadata
