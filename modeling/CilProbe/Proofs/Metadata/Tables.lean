import CilProbe.Proofs.Buffer
import CilProbe.Proofs.Metadata.Acceptance
import CilProbe.Proofs.Metadata.Writer

/-!
# Reading tables that were written

The widths with which tables are read are those with which they are written (`Contents.width_eq`), so each table is
found where it stands and each of its rows is read as it was written.  This holds wherever the stream of the tables
stands (`Contents.exists_read_eq_ok`).
-/

namespace CilProbe.Metadata

theorem header_toLittleEndian {data : Buffer} {offset width n : Nat}
    (h : data.Holds offset (Bytes.toLittleEndian width n)) : header data offset width = .ok (n % 256 ^ width) := by
  rw [header, Buffer.field?_toLittleEndian h]

theorem header_of_lt {data : Buffer} {offset width n : Nat} (hn : n < 256 ^ width)
    (h : data.Holds offset (Bytes.toLittleEndian width n)) : header data offset width = .ok n := by
  rw [header_toLittleEndian h, Nat.mod_eq_of_lt hn]

/-- The headers of metadata, each part at the offset at which it is read, and the streams that are found. -/
structure Headed (data : Buffer) (versionLength count : Nat) (streams : List (String × Stream)) : Prop where
  le_size : 16 ≤ data.size
  read_magic : header data 0 4 = .ok magic
  read_version : header data 12 4 = .ok versionLength
  read_count : header data (16 + versionLength + 2) 2 = .ok count
  read_streams : readStreams data count (16 + versionLength + 4) [] = .ok streams

/-! ### Widths -/

private theorem and_two_pow_ne_zero_iff (n i : Nat) : n &&& 2 ^ i ≠ 0 ↔ n.testBit i = true := by
  rw [Nat.and_two_pow]
  cases n.testBit i <;> simp

private theorem heapWidth_two_pow (heapSizes i : Nat) :
    heapWidth heapSizes (2 ^ i) = if heapSizes.testBit i then 4 else 2 := by
  simp only [heapWidth, and_two_pow_ne_zero_iff]

namespace Contents

variable {c : Contents}

/-- The row counts, as they are read. -/
def counts (c : Contents) : RowCounts := c.present.map fun table => (table, c.count table)

theorem mem_present {table : Table} : table ∈ c.present ↔ (c.rows table).isSome := by
  simp [present, Table.mem_all]

theorem rowsOf_of_not_present {table : Table} (h : table ∉ c.present) : c.rowsOf table = [] := by
  rw [mem_present, Bool.not_eq_true, Option.isSome_eq_false_iff, Option.isNone_iff_eq_none] at h
  rw [rowsOf, h]
  rfl

private theorem lookup_map_entry (tables : List Table) (table : Table) :
    (tables.map fun t => (t, c.count t)).lookup table = if table ∈ tables then some (c.count table) else none := by
  induction tables with
  | nil => rfl
  | cons t tables ih =>
    rw [List.map_cons, List.lookup_cons, ih]
    by_cases h : table = t
    · simp [h]
    · simp [h, beq_eq_false_iff_ne.2 h]

theorem get_counts (table : Table) : c.counts.get table = c.count table := by
  rw [RowCounts.get, counts, lookup_map_entry]
  split
  · rfl
  · next h => simp [count, rowsOf_of_not_present h]

/-- The widths that are read with are those of the standard. -/
theorem width_eq (kind : ColumnKind) : kind.width c.heapSizes.toNat c.counts = c.width kind := by
  cases kind with
  | fixed width => rfl
  | string => exact heapWidth_two_pow _ 0
  | guid => exact heapWidth_two_pow _ 1
  | blob => exact heapWidth_two_pow _ 2
  | simple table =>
    rw [ColumnKind.width, width, indexWidth]
    simp only [le_largest_iff (Nat.two_pow_pos _), List.mem_singleton, exists_eq_left, get_counts, Nat.sub_zero]
  | coded kind =>
    rw [ColumnKind.width, width, indexWidth]
    simp only [le_largest_iff (Nat.two_pow_pos _), List.mem_map, exists_exists_and_eq_and, get_counts]

/-- The columns of a table with their widths. -/
theorem columns_eq (table : Table) :
    table.columns c.heapSizes.toNat c.counts = table.schema.map fun (name, kind) => (name, c.width kind) := by
  rw [Table.columns]
  simp only [width_eq]

/-! ### Row counts -/

private theorem testBit_valid {i : Nat} (hi : i < 64) :
    c.valid.testBit i = (Table.ofIndex? i).any fun table => (c.rows table).isSome :=
  Nat.testBit_ofBits_lt _ i hi

/-- The tables that are present from a number on. -/
private def presentFrom (c : Contents) (i : Nat) : List Table :=
  (Table.all.drop i).filter fun table => (c.rows table).isSome

private theorem presentFrom_eq (i : Nat) :
    c.presentFrom i =
      (Table.ofIndex? i).toList.filter (fun table => (c.rows table).isSome) ++ c.presentFrom (i + 1) := by
  rw [presentFrom, List.drop_eq_getElem?_toList_append, List.filter_append]
  rfl

private theorem readCounts_presentFrom (hc : c.Fits) {data : Buffer} {left offset : Nat} (hleft : left ≤ 64)
    (h : data.Holds offset (c.countsBytes (c.presentFrom (64 - left)))) :
    readCounts data c.valid left offset =
      .ok ((c.presentFrom (64 - left)).map fun table => (table, c.count table),
        offset + 4 * (c.presentFrom (64 - left)).length) := by
  induction left generalizing offset with
  | zero => rfl
  | succ left ih =>
    have hindex : 64 - (left + 1) = 63 - left := by omega
    have hnext : 64 - left = 63 - left + 1 := by omega
    have hbit := testBit_valid (c := c) (show 63 - left < 64 by omega)
    rw [Nat.testBit_eq_decide_div_mod_eq] at hbit
    rw [hnext] at ih
    rw [hindex, presentFrom_eq] at h ⊢
    rw [readCounts]
    dsimp only
    cases htable : Table.ofIndex? (63 - left) with
    | none =>
      rw [htable] at hbit h
      rw [if_pos (by simpa using hbit)]
      exact ih (by omega) h
    | some table =>
      rw [htable] at hbit h
      cases hrows : (c.rows table).isSome with
      | false =>
        simp only [Option.any_some, hrows, decide_eq_false_iff_not] at hbit
        simp only [Option.toList_some, List.filter_cons, hrows] at h ⊢
        rw [if_pos (by omega)]
        exact ih (by omega) h
      | true =>
        simp only [Option.any_some, hrows, decide_eq_true_eq] at hbit
        simp only [Option.toList_some, List.filter_cons, hrows, if_true, List.filter_nil, List.cons_append,
          List.nil_append] at h ⊢
        rw [countsBytes, List.flatMap_cons, Buffer.holds_append, Bytes.length_toLittleEndian] at h
        have hcount := header_of_lt (hc.count table) h.1
        rw [if_neg (by omega)]
        simp only [hcount, ih (by omega) h.2, bind, Except.bind, pure, Except.pure, List.map_cons, List.length_cons,
          Except.ok.injEq, Prod.mk.injEq, true_and]
        omega

/-! ### Rows -/

private theorem length_columnsBytes {schema : List (String × ColumnKind)} {values : List Nat}
    (h : c.FitsColumns schema values) :
    (c.columnsBytes schema values).length = columnsSize (schema.map fun (name, kind) => (name, c.width kind)) := by
  induction h with
  | nil => rfl
  | cons _ _ ih =>
    rw [columnsBytes, List.zip_cons_cons, List.flatMap_cons, List.length_append, Bytes.length_toLittleEndian]
    exact congrArg _ ih

private theorem readColumns?_of_holds {schema : List (String × ColumnKind)} {values : List Nat}
    (h : c.FitsColumns schema values) {data : Buffer} {offset : Nat}
    (hdata : data.Holds offset (c.columnsBytes schema values)) :
    readColumns? data offset (schema.map fun (name, kind) => (name, c.width kind)) =
      some ((schema.map (·.1)).zip values) := by
  induction h generalizing offset with
  | nil => rfl
  | cons hvalue _ ih =>
    rw [columnsBytes, List.zip_cons_cons, List.flatMap_cons, Buffer.holds_append, Bytes.length_toLittleEndian] at hdata
    have hfield := Buffer.field?_toLittleEndian hdata.1
    rw [Nat.mod_eq_of_lt hvalue] at hfield
    rw [List.map_cons, readColumns?, hfield]
    simp only [ih hdata.2, Option.bind_eq_bind, Option.bind_some]
    rfl

/-- Where the rows of a table are, as they are read. -/
private def layoutAt (c : Contents) (table : Table) (offset : Nat) : TableLayout :=
  ⟨table, c.count table, offset, table.columns c.heapSizes.toNat c.counts⟩

private theorem length_rowBytes (hc : c.Fits) {table : Table} {values : List Nat} (h : values ∈ c.rowsOf table)
    (offset : Nat) : (c.rowBytes table values).length = (c.layoutAt table offset).rowSize := by
  rw [rowBytes, length_columnsBytes (hc.values table values h), TableLayout.rowSize, layoutAt, columns_eq]

private theorem length_tableBytes (hc : c.Fits) (table : Table) (offset : Nat) :
    (c.tableBytes table).length = (c.layoutAt table offset).rowSize * c.count table := by
  have h (rows : List (List Nat)) (hrows : ∀ values ∈ rows, values ∈ c.rowsOf table) :
      (rows.flatMap (c.rowBytes table)).length = (c.layoutAt table offset).rowSize * rows.length := by
    induction rows with
    | nil => rfl
    | cons values rows ih =>
      rw [List.flatMap_cons, List.length_append, length_rowBytes hc (hrows values (by simp)) offset,
        ih fun values hvalues => hrows values (by simp [hvalues]), List.length_cons, Nat.mul_succ, Nat.add_comm]
  exact h _ fun _ => id

/-- A row that was written is read. -/
private theorem row?_layoutAt (hc : c.Fits) {data : Buffer} {table : Table} {offset : Nat}
    (h : data.Holds offset (c.tableBytes table)) {i : Nat} {values : List Nat}
    (hi : (c.rowsOf table)[i]? = some values) :
    (c.layoutAt table offset).row? data (i + 1) = some ⟨table, i + 1, (table.schema.map (·.1)).zip values⟩ := by
  have hmem : values ∈ c.rowsOf table := List.mem_of_getElem? hi
  have hrow := h.flatMap_getElem (fun values hvalues => length_rowBytes hc hvalues offset) hi
  have hread := readColumns?_of_holds (hc.values table values hmem) hrow
  rw [TableLayout.row?, Nat.add_sub_cancel]
  rw [← columns_eq] at hread
  exact congrArg (Option.map (Row.mk table (i + 1))) hread

private theorem mapM_range'_eq_some {α β : Type} {f : Nat → Option β} {g : Nat → α → β} {l : List α} {start : Nat}
    (h : ∀ i a, l[i]? = some a → f (start + i) = some (g i a)) :
    (List.range' start l.length).mapM f = some (l.mapIdx g) := by
  induction l generalizing start g with
  | nil => rfl
  | cons a l ih =>
    have hhead : f start = some (g 0 a) := h 0 a rfl
    have htail : (List.range' (start + 1) l.length).mapM f = some (l.mapIdx fun i => g (i + 1)) := by
      refine ih fun i b hi => ?_
      rw [Nat.add_assoc, Nat.add_comm 1 i]
      exact h (i + 1) b hi
    rw [List.length_cons, List.range'_succ, List.mapM_cons, hhead, htail, List.mapIdx_cons]
    rfl

/-- The rows of a table that was written are read. -/
private theorem mapM_row?_layoutAt (hc : c.Fits) {data : Buffer} {table : Table} {offset : Nat}
    (h : data.Holds offset (c.tableBytes table)) :
    (List.range' 1 (c.count table)).mapM ((c.layoutAt table offset).row? data) = some (c.tableRows table) := by
  refine mapM_range'_eq_some fun i values hi => ?_
  rw [Nat.add_comm 1 i]
  exact row?_layoutAt hc h hi

/-! ### Tables -/

/-- The tables as they are read, from an offset on. -/
private def layoutsFrom (c : Contents) (offset : Nat) (tables : List Table) : List TableLayout × Nat :=
  layoutTables c.heapSizes.toNat c.counts offset (tables.map fun table => (table, c.count table))

private theorem layoutsFrom_cons (table : Table) (tables : List Table) (offset : Nat) :
    c.layoutsFrom offset (table :: tables) =
      (c.layoutAt table offset ::
          (c.layoutsFrom (offset + (c.layoutAt table offset).rowSize * c.count table) tables).1,
        (c.layoutsFrom (offset + (c.layoutAt table offset).rowSize * c.count table) tables).2) := rfl

private theorem stop_layoutsFrom (hc : c.Fits) (offset : Nat) (tables : List Table) :
    (c.layoutsFrom offset tables).2 = offset + (tables.flatMap c.tableBytes).length := by
  induction tables generalizing offset with
  | nil => rfl
  | cons table tables ih =>
    rw [layoutsFrom_cons, ih, List.flatMap_cons, List.length_append, length_tableBytes hc table offset, Nat.add_assoc]

private theorem find?_layoutsFrom_of_mem (hc : c.Fits) {data : Buffer} {tables : List Table} {offset : Nat}
    (h : data.Holds offset (tables.flatMap c.tableBytes)) {table : Table} (htable : table ∈ tables) :
    ∃ start, (c.layoutsFrom offset tables).1.find? (·.table == table) = some (c.layoutAt table start) ∧
      data.Holds start (c.tableBytes table) := by
  induction tables generalizing offset with
  | nil => contradiction
  | cons first tables ih =>
    rw [List.flatMap_cons, Buffer.holds_append, length_tableBytes hc first offset] at h
    rw [layoutsFrom_cons]
    by_cases hfirst : first = table
    · subst hfirst
      exact ⟨offset, List.find?_cons_of_pos (beq_self_eq_true first), h.1⟩
    · rw [List.find?_cons_of_neg (by simpa [layoutAt] using hfirst)]
      exact ih h.2 ((List.mem_cons.1 htable).resolve_left (Ne.symm hfirst))

private theorem find?_layoutsFrom_of_not_mem {tables : List Table} (offset : Nat) {table : Table}
    (htable : table ∉ tables) : (c.layoutsFrom offset tables).1.find? (·.table == table) = none := by
  induction tables generalizing offset with
  | nil => rfl
  | cons first tables ih =>
    rw [List.mem_cons, not_or] at htable
    rw [layoutsFrom_cons, List.find?_cons_of_neg (by simpa [layoutAt] using Ne.symm htable.1)]
    exact ih _ htable.2

/-- Whether tables are present or not: what was written is what they hold. -/
private theorem rows?_of_layoutsFrom (hc : c.Fits) {m : Metadata} {offset : Nat}
    (htables : m.tables = (c.layoutsFrom offset c.present).1)
    (h : m.data.Holds offset (c.present.flatMap c.tableBytes)) (table : Table) :
    m.rows? table = some (c.tableRows table) ∧ m.rowCount table = c.count table := by
  rw [rows?, rowCount, layout?, htables]
  by_cases htable : table ∈ c.present
  · obtain ⟨start, hfind, hholds⟩ := find?_layoutsFrom_of_mem hc h htable
    rw [hfind]
    exact ⟨mapM_row?_layoutAt hc hholds, rfl⟩
  · rw [find?_layoutsFrom_of_not_mem offset htable]
    have hrows := rowsOf_of_not_present htable
    exact ⟨by rw [tableRows, hrows]; rfl, by rw [count, hrows]; rfl⟩

/-! ### The stream of the tables -/

private theorem length_countsBytes (tables : List Table) : (c.countsBytes tables).length = 4 * tables.length := by
  rw [countsBytes, List.length_flatMap]
  simp only [Bytes.length_toLittleEndian, List.map_const', List.sum_replicate_nat]
  exact Nat.mul_comm ..

private theorem length_extraBytes : c.extraBytes.length = if c.heapSizes.toNat &&& extraFlag ≠ 0 then 4 else 0 := by
  have hflag : c.heapSizes.toNat &&& extraFlag ≠ 0 ↔ c.heapSizes.toNat.testBit 6 = true := and_two_pow_ne_zero_iff _ 6
  rw [extraBytes]
  split
  · next h => rw [if_pos (hflag.2 h), Bytes.length_toLittleEndian]
  · next h => rw [if_neg (mt hflag.1 h), List.length_nil]

/-- The parts of the stream of the tables, each at the offset at which it is read. -/
private theorem holds_toBytes {data : Buffer} {offset : Nat} (h : data.Holds offset c.toBytes) :
    offset + 24 ≤ data.size ∧ header data (offset + 6) 1 = .ok c.heapSizes.toNat ∧
      header data (offset + 8) 8 = .ok c.valid ∧ data.Holds (offset + 24) (c.countsBytes c.present) ∧
      data.Holds (offset + 24 + 4 * c.present.length + c.extraBytes.length) (c.present.flatMap c.tableBytes) := by
  have hvalid : c.valid < 256 ^ 8 := Nat.ofBits_lt_two_pow _
  have hheap : c.heapSizes.toNat < 256 ^ 1 := c.heapSizes.toNat_lt
  simp only [toBytes, Buffer.holds_append, List.length_append, Bytes.length_toLittleEndian, length_countsBytes] at h
  obtain ⟨⟨⟨⟨⟨⟨⟨-, h₆⟩, -⟩, h₈⟩, -⟩, h₂₄⟩, -⟩, htables⟩ := h
  refine ⟨?_, header_of_lt hheap h₆, header_of_lt hvalid h₈, h₂₄, ?_⟩
  · exact Nat.le_trans (Nat.le_add_right ..) h₂₄.le
  · convert htables using 1
    omega

/-- Wherever the stream of the tables stands: with headers that lead there, metadata is accepted. -/
theorem exists_read_eq_ok (hc : c.Fits) {data : Buffer} {versionLength count : Nat}
    {streams : List (String × Stream)} {stream : Stream} (hheaded : Headed data versionLength count streams)
    (hstream : streams.lookup tablesName = some stream) (h : data.Holds stream.offset c.toBytes) :
    ∃ m, read data = .ok m ∧ ∀ table, m.rows? table = some (c.tableRows table) ∧ m.rowCount table = c.count table := by
  obtain ⟨h₂₄, hheap, hvalid, hcounts, htables⟩ := holds_toBytes h
  have hread : readCounts data c.valid 64 (stream.offset + 24) =
      .ok (c.counts, stream.offset + 24 + 4 * c.present.length) := readCounts_presentFrom hc (Nat.le_refl 64) hcounts
  have hstart : (if c.heapSizes.toNat &&& extraFlag ≠ 0 then stream.offset + 24 + 4 * c.present.length + 4
      else stream.offset + 24 + 4 * c.present.length) =
      stream.offset + 24 + 4 * c.present.length + c.extraBytes.length := by
    rw [length_extraBytes]
    split <;> rfl
  generalize stream.offset + 24 + 4 * c.present.length + c.extraBytes.length = start at hstart htables
  have hstop : ¬(layoutTables c.heapSizes.toNat c.counts start c.counts).2 > data.size := by
    have hle := htables.le
    rw [← stop_layoutsFrom hc] at hle
    exact Nat.not_lt.2 hle
  refine ⟨⟨data, Utf8.decodeToZero (data.slice 16 versionLength), streams, c.heapSizes.toNat,
    (c.layoutsFrom start c.present).1⟩, ?_, rows?_of_layoutsFrom hc rfl htables⟩
  simp only [read, if_neg (Nat.not_lt.2 hheaded.le_size), hheaded.read_magic, hheaded.read_version,
    hheaded.read_count, hheaded.read_streams, hstream, if_neg (Nat.not_lt.2 h₂₄), hheap, hvalid, hread, hstart,
    if_neg hstop, ne_eq, not_true_eq_false, if_false, bind, Except.bind, pure, Except.pure]
  rfl

end Contents

end CilProbe.Metadata
