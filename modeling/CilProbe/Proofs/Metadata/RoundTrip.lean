import CilProbe.Proofs.Metadata.Directory

/-!
# Reading metadata that was written

Whatever was written as the rows of tables is read as such, with any streams around the tables
(`read_written_tables`).  The streams are found by the directory in front of them; of streams with one name the first
counts (`streamOf?`).
-/

namespace CilProbe.Metadata

/-! ### The directory of the streams -/

/-- The stream that goes by a name: of several the first one. -/
def streamOf? (key : String) : (offset : Nat) → List (Bytes × Bytes) → Option Stream
  | _, [] => none
  | offset, (name, content) :: streams =>
    if streamKey name = key then some ⟨offset % 256 ^ 4, content.length % 256 ^ 4⟩
    else streamOf? key (offset + content.length) streams

/-- The headers of streams that stand one behind the other from an offset on. -/
private def headersFrom : (offset : Nat) → List (Bytes × Bytes) → List (Stream × Bytes)
  | _, [] => []
  | offset, (name, content) :: streams =>
    (⟨offset, content.length⟩, name) :: headersFrom (offset + content.length) streams

private theorem names_headersFrom (offset : Nat) (streams : List (Bytes × Bytes)) :
    (headersFrom offset streams).map (·.2) = streams.map (·.1) := by
  induction streams generalizing offset with
  | nil => rfl
  | cons stream streams ih => exact congrArg (stream.1 :: ·) (ih _)

private theorem length_headersFrom (offset : Nat) (streams : List (Bytes × Bytes)) :
    (headersFrom offset streams).length = streams.length := by
  have hlength := congrArg List.length (names_headersFrom offset streams)
  rwa [List.length_map, List.length_map] at hlength

private theorem directory_eq_flatMap (offset : Nat) (streams : List (Bytes × Bytes)) :
    directory offset streams = (headersFrom offset streams).flatMap fun header => headerBytes header.1 header.2 := by
  induction streams generalizing offset with
  | nil => rfl
  | cons stream streams ih => rw [directory, ih, headersFrom, List.flatMap_cons, headerBytes]

private theorem lookup_headersFrom (key : String) (offset : Nat) (streams : List (Bytes × Bytes)) :
    ((headersFrom offset streams).map entryOf).lookup key = streamOf? key offset streams := by
  induction streams generalizing offset with
  | nil => rfl
  | cons stream streams ih =>
    obtain ⟨name, content⟩ := stream
    rw [headersFrom, List.map_cons, entryOf, List.lookup_cons, ih, streamOf?]
    dsimp only
    by_cases hkey : streamKey name = key
    · rw [if_pos hkey, hkey, beq_self_eq_true]
    · rw [if_neg hkey, beq_eq_false_iff_ne.2 (Ne.symm hkey)]

private theorem length_directory (offset : Nat) (streams : List (Bytes × Bytes)) :
    (directory offset streams).length = directorySize (streams.map (·.1)) := by
  induction streams generalizing offset with
  | nil => rfl
  | cons stream streams ih =>
    rw [directory, List.length_append, List.length_append, List.length_append, Bytes.length_toLittleEndian,
      Bytes.length_toLittleEndian, length_paddedName, ih]
    rfl

private theorem streamOf?_append {key : String} {before : List (Bytes × Bytes)}
    (hbefore : ∀ stream ∈ before, streamKey stream.1 ≠ key) (offset : Nat) (streams : List (Bytes × Bytes)) :
    streamOf? key offset (before ++ streams) = streamOf? key (offset + (before.flatMap (·.2)).length) streams := by
  induction before generalizing offset with
  | nil => rfl
  | cons stream before ih =>
    rw [List.cons_append, streamOf?, if_neg (hbefore stream (by simp)),
      ih fun stream hstream => hbefore stream (by simp [hstream]), List.flatMap_cons, List.length_append, Nat.add_assoc]

/-! ### Metadata as a whole -/

namespace Root

variable {r : Root}

private theorem map_streams (tables : Bytes) : (r.streams tables).map (·.1) = r.names := by
  rw [streams, names, List.map_append, List.map_cons]

private theorem length_streams (tables : Bytes) : (r.streams tables).length = r.names.length := by
  rw [← map_streams tables, List.length_map]

private theorem streamOf?_streams (hr : r.Fits) (tables : Bytes) :
    streamOf? tablesName r.size (r.streams tables) = some ⟨r.tablesOffset, tables.length % 256 ^ 4⟩ := by
  rw [streams, streamOf?_append hr.before, streamOf?, if_pos hr.name]
  exact congrArg (fun offset => some (Stream.mk offset _)) (Nat.mod_eq_of_lt hr.offset)

private theorem toBytes_eq_frontBytes (tables : Bytes) :
    r.toBytes tables = frontBytes (Bytes.toLittleEndian 8 0x10001) r.version (Bytes.toLittleEndian 2 0)
      (headersFrom r.size (r.streams tables)) ++ (r.streams tables).flatMap (·.2) := by
  rw [toBytes, frontBytes, directory_eq_flatMap, length_headersFrom, length_streams]

/-- The headers lead to the stream of the tables, and there it stands. -/
private theorem holds_toBytes (hr : r.Fits) {data : Buffer} {tables : Bytes} (h : data.Holds 0 (r.toBytes tables)) :
    (∃ streams, Headed data r.version.length r.names.length streams ∧
      streams.lookup tablesName = some ⟨r.tablesOffset, tables.length % 256 ^ 4⟩) ∧
      data.Holds r.tablesOffset tables := by
  have hnames : ∀ header ∈ headersFrom r.size (r.streams tables), 0 ∉ header.2 := by
    intro header hheader
    refine hr.names header.2 ?_
    rw [← map_streams tables, ← names_headersFrom r.size]
    exact List.mem_map_of_mem hheader
  have hlength : (headersFrom r.size (r.streams tables)).length = r.names.length := by
    rw [length_headersFrom, length_streams]
  have hfront := h
  rw [toBytes_eq_frontBytes, Buffer.holds_append] at hfront
  have hheaded := headed_of_holds (Bytes.length_toLittleEndian 8 _) (Bytes.length_toLittleEndian 2 _) hr.version
    (hlength ▸ hr.count) hnames hfront.1
  refine ⟨⟨_, hlength ▸ hheaded, ?_⟩, ?_⟩
  · rw [lookup_foldl_keepStream, List.lookup_nil, Option.none_or, lookup_headersFrom, streamOf?_streams hr]
  · simp only [toBytes, Buffer.holds_append, List.length_append, Bytes.length_toLittleEndian, length_directory,
      map_streams] at h
    obtain ⟨-, hcontents⟩ := h
    rw [streams, List.flatMap_append, List.flatMap_cons, Buffer.holds_append, Buffer.holds_append] at hcontents
    convert hcontents.2.1 using 1
    rw [tablesOffset, size]
    omega

end Root

private theorem decodeIndex_bits {kind : CodedIndex} {tag : Nat} {table : Table} (h : kind.tables[tag]? = some table)
    (rid : Nat) : decodeIndex kind (rid <<< kind.bits ||| tag) = .ok (table, rid) := by
  have htag : tag < 2 ^ kind.bits := CodedIndex.lt_of_getElem?_tables h
  have hencode : rid <<< kind.bits ||| tag = kind.encode tag rid := by
    rw [← Nat.shiftLeft_add_eq_or_of_lt htag, Nat.shiftLeft_eq, CodedIndex.encode]
  rw [decodeIndex, hencode, CodedIndex.decode?_encode h]

/-- Whatever the tables hold, and whatever streams stand around them: each table is read as it was written, its rows are
found by their numbers, and a column that holds a row number above a tag refers to this row of the table of the tag. -/
theorem read_written_tables {r : Root} {c : Contents} (hr : r.Fits) (hc : c.Fits) :
    ∃ m, read (r.toBytes c.toBytes).toArray = .ok m ∧
      (∀ table : Table, m.rowsOf? table.name = some (c.tableRows table)) ∧
      (∀ (table : Table) (rid : Int), m.rowOf table.name rid = pick table.name (c.tableRows table) rid) ∧
      ∀ (kind : CodedIndex) (tag rid : Nat) (table : Table), kind.tables[tag]? = some table →
        decodeIndex kind (rid <<< kind.bits ||| tag) = .ok (table, rid) := by
  obtain ⟨⟨streams, hheaded, hstream⟩, htables⟩ :=
    Root.holds_toBytes hr (Buffer.holds_toArray (r.toBytes c.toBytes))
  obtain ⟨m, hm, hrows⟩ := Contents.exists_read_eq_ok hc hheaded hstream htables
  have hrowsOf (table : Table) : m.rowsOf? table.name = some (c.tableRows table) := by
    rw [rowsOf?, Table.ofName?_name]
    exact (hrows table).1
  refine ⟨m, hm, hrowsOf, fun table rid => rowOf_eq_pick (hrowsOf table) ?_ rid, fun _ _ rid _ h =>
    decodeIndex_bits h rid⟩
  rw [rowCountOf, Table.ofName?_name, Contents.tableRows, List.length_mapIdx]
  exact (hrows table).2.symm

/-- So many fields that a row number of a field, and a reference to one of many tables, take four bytes.  Names and
signatures have wide indexes, identifiers have narrow ones, and four bytes stand behind the row counts. -/
private def manyFields : Contents where
  heapSizes := 0x45
  rows
    | .module => some [[0, 1, 1, 0, 0]]
    | .typeRef => some []
    | .fieldPtr => some [[65536], [1]]
    | .field => some (List.replicate 65536 [6, 70000, 4294967295])
    | .customAttribute => some [[65536 <<< 5 ||| 1, 2 <<< 3 ||| 3, 70000]]
    | _ => none
  sorted := 0x3301FA00
  extra := 0xFFFFFFFF

private theorem count_field : manyFields.count .field = 65536 := List.length_replicate

private theorem width_simple_field : manyFields.width (.simple .field) = 4 := by
  have hcount : 2 ^ 16 ≤ manyFields.count .field := by rw [count_field]
  rw [Contents.width, if_pos hcount]

private theorem width_hasCustomAttribute : manyFields.width (.coded .hasCustomAttribute) = 4 := by
  have hcount : ∃ table ∈ CodedIndex.tables .hasCustomAttribute,
      2 ^ (16 - CodedIndex.bits .hasCustomAttribute) ≤ manyFields.count table := by
    refine ⟨.field, by decide, ?_⟩
    rw [count_field]
    decide
  rw [Contents.width, if_pos hcount]

private theorem lt_of_width_eq {c : Contents} {kind : ColumnKind} {value size : Nat} (h : c.width kind = size)
    (hvalue : value < 256 ^ size) : value < 256 ^ c.width kind := by rwa [h]

private theorem fits_manyFields : manyFields.Fits where
  count table := by
    cases table
    case field => rw [count_field]; decide
    all_goals decide
  values table row hrow := by
    cases table
    case module =>
      cases List.mem_singleton.1 hrow
      exact .cons (by decide) (.cons (by decide) (.cons (by decide) (.cons (by decide) (.cons (by decide) .nil))))
    case fieldPtr =>
      rcases List.mem_pair.1 hrow with rfl | rfl
      · exact .cons (lt_of_width_eq width_simple_field (by decide)) .nil
      · exact .cons (lt_of_width_eq width_simple_field (by decide)) .nil
    case field =>
      rw [List.eq_of_mem_replicate hrow]
      exact .cons (by decide) (.cons (by decide) (.cons (by decide) .nil))
    case customAttribute =>
      cases List.mem_singleton.1 hrow
      exact .cons (lt_of_width_eq width_hasCustomAttribute (by decide)) (.cons (by decide) (.cons (by decide) .nil))
    all_goals contradiction

/-- The stream of the tables under its second name, between two others. -/
private def threeStreams : Root where
  version := [0x76, 0x34, 0x2E, 0x30]
  before := [([0x23, 0x55, 0x53], [0, 0, 0, 0])]
  name := [0x23, 0x2D]
  after := [([0x23, 0x7E], [1, 2, 3])]

private theorem fits_threeStreams : threeStreams.Fits := by
  constructor <;> decide +kernel

theorem read_written_tables_manyFields :
    threeStreams.Fits ∧ manyFields.Fits ∧ ∃ m, read (threeStreams.toBytes manyFields.toBytes).toArray = .ok m ∧
      m.rowOf "FieldPtr" 1 = .ok ⟨.fieldPtr, 1, [("Field", 65536)]⟩ ∧
      m.rowOf "FieldPtr" 3 = .error (.noRow "FieldPtr" 3) ∧ m.rowsOf? "TypeRef" = some [] ∧
      m.rowOf "CustomAttribute" 1 =
        .ok ⟨.customAttribute, 1, [("Parent", 65536 <<< 5 ||| 1), ("Type", 2 <<< 3 ||| 3), ("Value", 70000)]⟩ ∧
      decodeIndex .hasCustomAttribute (65536 <<< 5 ||| 1) = .ok (.field, 65536) := by
  obtain ⟨m, hm, hrows, hrow, hdecode⟩ := read_written_tables fits_threeStreams fits_manyFields
  exact ⟨fits_threeStreams, fits_manyFields, m, hm, hrow .fieldPtr 1, hrow .fieldPtr 3, hrows .typeRef,
    hrow .customAttribute 1, hdecode .hasCustomAttribute 1 65536 .field rfl⟩

end CilProbe.Metadata
