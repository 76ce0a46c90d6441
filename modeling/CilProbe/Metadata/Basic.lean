import CilProbe.Bytes
import CilProbe.Metadata.Error
import CilProbe.Text.Utf8

/-!
# Metadata

Metadata begins with a version and a list of streams. The stream of the tables says which tables there are and how many
rows they have; from this the widths of all columns follow, and so where each row stands. Everything that is read later
lies inside the data: `Metadata.read` refuses tables that do not.
-/

namespace CilProbe

/-- A part of the metadata. -/
structure Metadata.Stream where
  offset : Nat
  size : Nat
  deriving DecidableEq, Repr

/-- Where the rows of a table stand. -/
structure Metadata.TableLayout where
  table : Metadata.Table
  rows : Nat
  offset : Nat
  /-- The columns with their widths. -/
  columns : List (String × Nat)
  deriving DecidableEq, Repr

/-- The number of bytes of columns with these widths. -/
def Metadata.columnsSize : List (String × Nat) → Nat
  | [] => 0
  | (_, width) :: rest => width + columnsSize rest

/-- The number of bytes of a row. -/
def Metadata.TableLayout.rowSize (t : Metadata.TableLayout) : Nat := Metadata.columnsSize t.columns

/-- Metadata that has been read. -/
structure Metadata where
  data : Buffer
  version : String
  /-- The first stream of each name. -/
  streams : List (String × Metadata.Stream)
  /-- The flags that say which heaps have wide indexes. -/
  heapSizes : Nat
  /-- The tables that are present, by number. -/
  tables : List Metadata.TableLayout

namespace Metadata

/-! ### Widths -/

/-- The number of rows of the largest of some tables. -/
def largest (rows : List Nat) : Nat := rows.foldl max 0

theorem le_largest_iff {rows : List Nat} {n : Nat} (hn : 0 < n) : n ≤ largest rows ↔ ∃ m ∈ rows, n ≤ m := by
  have h (start : Nat) : n ≤ rows.foldl max start ↔ n ≤ start ∨ ∃ m ∈ rows, n ≤ m := by
    induction rows generalizing start with
    | nil => simp
    | cons m rows ih =>
      have hmax : n ≤ max start m ↔ n ≤ start ∨ n ≤ m := by omega
      rw [List.foldl_cons, ih, hmax]
      simp only [List.mem_cons, exists_eq_or_imp, or_assoc]
  rw [largest, h 0]
  exact or_iff_right (Nat.not_le.2 hn)

/-- The width of an index into the largest of some tables, `bits` bits of which are a tag. -/
def indexWidth (rows : List Nat) (bits : Nat) : Nat := if 2 ^ (16 - bits) ≤ largest rows then 4 else 2

/-- The same for any number of tag bits; sixteen are the most. A number below zero leaves so many more bits to the
index. -/
def indexWidth? (rows : List Nat) : (bits : Int) → Option Nat
  | .ofNat bits => if bits ≤ 16 then some (indexWidth rows bits) else none
  | .negSucc n => some (if 17 + n ≤ (largest rows).log2 then 4 else 2)

/-- The number of rows of each present table. -/
abbrev RowCounts := List (Table × Nat)

def RowCounts.get (counts : RowCounts) (t : Table) : Nat := (counts.lookup t).getD 0

/-- The flags of wide indexes. -/
def stringFlag : Nat := 0x01
def guidFlag : Nat := 0x02
def blobFlag : Nat := 0x04

/-- The flag of four unused bytes behind the row counts. -/
def extraFlag : Nat := 0x40

def heapWidth (heapSizes flag : Nat) : Nat := if heapSizes &&& flag ≠ 0 then 4 else 2

def ColumnKind.width (heapSizes : Nat) (counts : RowCounts) : ColumnKind → Nat
  | .fixed width => width
  | .string => heapWidth heapSizes stringFlag
  | .guid => heapWidth heapSizes guidFlag
  | .blob => heapWidth heapSizes blobFlag
  | .simple table => indexWidth [counts.get table] 0
  | .coded kind => indexWidth (kind.tables.map counts.get) kind.bits

/-- The columns of a table with their widths. -/
def Table.columns (heapSizes : Nat) (counts : RowCounts) (t : Table) : List (String × Nat) :=
  t.schema.map fun (name, kind) => (name, kind.width heapSizes counts)

/-- The widths of all kinds of index, by name. -/
def indexWidths (counts : RowCounts) : List (String × Nat) :=
  CodedIndex.all.map (fun kind => (kind.name, (ColumnKind.coded kind).width 0 counts)) ++
    Table.all.map fun table => (table.name, (ColumnKind.simple table).width 0 counts)

/-! ### Reading the headers -/

/-- The four bytes in front of all metadata, as a number. -/
def magic : Nat := 0x424A5342

/-- The name under which the stream of the tables is kept. -/
def tablesName : String := "#~"

/-- A field of a header. -/
def header (data : Buffer) (offset width : Nat) : Except FormatError Nat :=
  match data.field? offset width with
  | some n => .ok n
  | none => .error .truncated

/-- The first zero byte from an offset on. -/
def zeroFrom? (data : Buffer) (offset : Nat) : Option Nat :=
  if h : offset < data.size then
    if data[offset] = 0 then some offset else zeroFrom? data (offset + 1)
  else none
termination_by data.size - offset

/-- The name of a stream, in small letters. A byte beyond ASCII becomes a replacement character. The two kinds of table
streams go by one name. -/
def streamKey (name : Bytes) : String :=
  let key := String.ofList (name.map fun b => if b < 0x80 then (Char.ofNat b.toNat).toLower else Utf8.replacement)
  if key = "#-" then tablesName else key

/-- Reads so many stream headers; a stream whose name was seen before is left out. -/
def readStreams (data : Buffer) : (count offset : Nat) → List (String × Stream) →
    Except FormatError (List (String × Stream))
  | 0, _, streams => .ok streams
  | count + 1, offset, streams => do
    let streamOffset ← header data offset 4
    let size ← header data (offset + 4) 4
    let start := offset + 8
    match zeroFrom? data start with
    | none => throw .unterminatedName
    | some stop =>
      let key := streamKey (data.slice start (stop - start))
      let next := start + ((stop - start) / 4 + 1) * 4
      readStreams data count next
        (if (streams.lookup key).isSome then streams else streams ++ [(key, ⟨streamOffset, size⟩)])

/-- Reads the row counts of the tables whose bits are set in `valid`, from table number `index` on. -/
def readCounts (data : Buffer) (valid : Nat) : (left offset : Nat) → Except FormatError (RowCounts × Nat)
  | 0, offset => .ok ([], offset)
  | left + 1, offset => do
    let index := 63 - left
    if valid / 2 ^ index % 2 = 0 then readCounts data valid left offset
    else
      match Table.ofIndex? index with
      | none => throw (.unknownTable index)
      | some table =>
        let rows ← header data offset 4
        let (counts, offset) ← readCounts data valid left (offset + 4)
        return ((table, rows) :: counts, offset)

/-- Puts the tables one behind the other. -/
def layoutTables (heapSizes : Nat) (counts : RowCounts) : (offset : Nat) → RowCounts → List TableLayout × Nat
  | offset, [] => ([], offset)
  | offset, (table, rows) :: rest =>
    let layout : TableLayout := ⟨table, rows, offset, table.columns heapSizes counts⟩
    let (layouts, stop) := layoutTables heapSizes counts (offset + layout.rowSize * rows) rest
    (layout :: layouts, stop)

/-- Metadata from its bytes. -/
def read (data : Buffer) : Except FormatError Metadata := do
  if data.size < 16 then throw .truncated
  let signature ← header data 0 4
  if signature ≠ magic then throw (.badSignature signature)
  let versionLength ← header data 12 4
  let version := Utf8.decodeToZero (data.slice 16 versionLength)
  let streamCount ← header data (16 + versionLength + 2) 2
  let streams ← readStreams data streamCount (16 + versionLength + 4) []
  match streams.lookup tablesName with
  | none => throw .noTables
  | some stream =>
    if data.size < stream.offset + 24 then throw .truncated
    let heapSizes ← header data (stream.offset + 6) 1
    let valid ← header data (stream.offset + 8) 8
    let (counts, offset) ← readCounts data valid 64 (stream.offset + 24)
    let (tables, stop) :=
      layoutTables heapSizes counts (if heapSizes &&& extraFlag ≠ 0 then offset + 4 else offset) counts
    if stop > data.size then throw .tablesTooLarge
    return { data, version, streams, heapSizes, tables }

/-! ### Rows -/

/-- A row with its columns by name. -/
structure Row where
  table : Table
  rid : Nat
  values : List (String × Nat)
  deriving DecidableEq, Repr

def Row.column? (row : Row) (name : String) : Option Nat := row.values.lookup name

/-- The value in a column of the schema. -/
def Row.column (row : Row) (name : String) : Nat := (row.column? name).getD 0

/-- The row counts of the present tables. -/
def rowCounts (m : Metadata) : RowCounts := m.tables.map fun t => (t.table, t.rows)

def layout? (m : Metadata) (table : Table) : Option TableLayout := m.tables.find? (·.table == table)

/-- The number of rows; zero for a table that is not present. -/
def rowCount (m : Metadata) (table : Table) : Nat := ((m.layout? table).map (·.rows)).getD 0

/-- The columns of a row that stand from an offset on; none if one of them is not inside the data. -/
def readColumns? (data : Buffer) : (offset : Nat) → List (String × Nat) → Option (List (String × Nat))
  | _, [] => some []
  | offset, (name, width) :: rest => do
    let value ← data.field? offset width
    return (name, value) :: (← readColumns? data (offset + width) rest)

/-- The row with a number, counted from one; none if the data ends before it does. -/
def TableLayout.row? (layout : TableLayout) (data : Buffer) (rid : Nat) : Option Row :=
  (readColumns? data (layout.offset + (rid - 1) * layout.rowSize) layout.columns).map (⟨layout.table, rid, ·⟩)

/-- The rows of a table in order; none if the data ends before they do. -/
def rows? (m : Metadata) (table : Table) : Option (List Row) :=
  match m.layout? table with
  | some layout => (List.range' 1 layout.rows).mapM (layout.row? m.data)
  | none => some []

/-- The rows of a table in order. -/
def rows (m : Metadata) (table : Table) : List Row := (m.rows? table).getD []

/-- A row that exists. -/
def row (m : Metadata) (table : Table) (rid : Nat) : Except LookupError Row :=
  match m.layout? table with
  | some layout =>
    if 1 ≤ rid ∧ rid ≤ layout.rows then
      match layout.row? m.data rid with
      | some row => .ok row
      | none => .error (.rowOutside table.name rid)
    else .error (.noRow table.name rid)
  | none => .error (.noRow table.name rid)

/-- The row with a number in the table of a name. -/
def rowOf (m : Metadata) (tableName : String) (rid : Int) : Except LookupError Row :=
  match Table.ofName? tableName, rid with
  | some table, .ofNat rid => m.row table rid
  | _, _ => .error (.noRow tableName rid)

/-- The row that a value of a coded column refers to. -/
def decodeIndex (kind : CodedIndex) (value : Nat) : Except LookupError (Table × Nat) :=
  match kind.decode? value with
  | some target => .ok target
  | none => .error (.badTag kind (kind.tag value))

end Metadata

end CilProbe
