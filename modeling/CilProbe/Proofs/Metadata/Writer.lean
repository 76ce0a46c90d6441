import CilProbe.Metadata.Basic
import Mathlib.Data.List.Forall2
import Mathlib.Data.Nat.Bitwise

/-!
# Writing metadata

How tables and streams are written.  The widths of columns are those of the standard (`Contents.width`): an index takes
four bytes if a flag says so, for heaps, or if one of the tables that it may refer to has so many rows that the tag and
the number of a row do not fit into two bytes.
-/

namespace CilProbe.Metadata

/-! ### Tables -/

/-- What the stream of the tables holds. -/
structure Contents where
  /-- The flags of wide heap indexes and of four more bytes behind the row counts. -/
  heapSizes : UInt8
  /-- The rows of each table that is present; a row is the values of its columns in order. -/
  rows : Table → Option (List (List Nat))
  /-- The bits of the tables whose rows are sorted. -/
  sorted : Nat
  /-- What stands behind the row counts if the flags announce it. -/
  extra : Nat

namespace Contents

variable (c : Contents)

/-- The tables that are present, by number. -/
def present : List Table := Table.all.filter fun table => (c.rows table).isSome

def rowsOf (table : Table) : List (List Nat) := (c.rows table).getD []

def count (table : Table) : Nat := (c.rowsOf table).length

/-- The number of bytes of a column. -/
def width : ColumnKind → Nat
  | .fixed width => width
  | .string => if c.heapSizes.toNat.testBit 0 then 4 else 2
  | .guid => if c.heapSizes.toNat.testBit 1 then 4 else 2
  | .blob => if c.heapSizes.toNat.testBit 2 then 4 else 2
  | .simple table => if 2 ^ 16 ≤ c.count table then 4 else 2
  | .coded kind => if ∃ table ∈ kind.tables, 2 ^ (16 - kind.bits) ≤ c.count table then 4 else 2

/-- The bits of the tables that are present. -/
def valid : Nat := Nat.ofBits fun i : Fin 64 => (Table.ofIndex? i).any fun table => (c.rows table).isSome

/-- The values of columns one behind the other. -/
def columnsBytes (schema : List (String × ColumnKind)) (values : List Nat) : Bytes :=
  (schema.zip values).flatMap fun (column, value) => Bytes.toLittleEndian (c.width column.2) value

def rowBytes (table : Table) (values : List Nat) : Bytes := c.columnsBytes table.schema values

def tableBytes (table : Table) : Bytes := (c.rowsOf table).flatMap (c.rowBytes table)

/-- The row counts of some tables. -/
def countsBytes (tables : List Table) : Bytes :=
  tables.flatMap fun table => Bytes.toLittleEndian 4 (c.count table)

def extraBytes : Bytes := if c.heapSizes.toNat.testBit 6 then Bytes.toLittleEndian 4 c.extra else []

/-- The stream of the tables. -/
def toBytes : Bytes :=
  Bytes.toLittleEndian 4 0 ++ Bytes.toLittleEndian 2 2 ++ Bytes.toLittleEndian 1 c.heapSizes.toNat ++
    Bytes.toLittleEndian 1 1 ++ Bytes.toLittleEndian 8 c.valid ++ Bytes.toLittleEndian 8 c.sorted ++
    c.countsBytes c.present ++ c.extraBytes ++ c.present.flatMap c.tableBytes

/-- There is a value for each column, and it fits. -/
def FitsColumns (schema : List (String × ColumnKind)) (values : List Nat) : Prop :=
  List.Forall₂ (fun column value => value < 256 ^ c.width column.2) schema values

/-- The values fit their columns, and the row counts their fields. -/
structure Fits : Prop where
  count (table : Table) : c.count table < 2 ^ 32
  values (table : Table) : ∀ row ∈ c.rowsOf table, c.FitsColumns table.schema row

/-- The rows that are read back: numbered from one, and with the names of the columns. -/
def tableRows (table : Table) : List Row :=
  (c.rowsOf table).mapIdx fun i values => ⟨table, i + 1, (table.schema.map (·.1)).zip values⟩

end Contents

/-! ### Streams -/

/-- A name behind which a zero byte and up to three more stand, so that a multiple of four bytes is taken. -/
def paddedName (name : Bytes) : Bytes := name ++ List.replicate (4 - name.length % 4) 0

/-- The headers of streams that stand one behind the other from an offset on. -/
def directory : (offset : Nat) → List (Bytes × Bytes) → Bytes
  | _, [] => []
  | offset, (name, content) :: streams =>
    Bytes.toLittleEndian 4 offset ++ Bytes.toLittleEndian 4 content.length ++ paddedName name ++
      directory (offset + content.length) streams

/-- The number of bytes of the headers of streams with these names. -/
def directorySize : List Bytes → Nat
  | [] => 0
  | name :: names => 8 + (name.length / 4 + 1) * 4 + directorySize names

/-- What stands around the stream of the tables: streams in front of it and behind it, by name. -/
structure Root where
  version : Bytes
  before : List (Bytes × Bytes)
  /-- The name of the stream of the tables. -/
  name : Bytes
  after : List (Bytes × Bytes)

namespace Root

variable (r : Root)

def streams (tables : Bytes) : List (Bytes × Bytes) := r.before ++ (r.name, tables) :: r.after

/-- The names of all streams. -/
def names : List Bytes := r.before.map (·.1) ++ r.name :: r.after.map (·.1)

/-- Where the first stream stands. -/
def size : Nat := 20 + r.version.length + directorySize r.names

/-- Where the stream of the tables stands. -/
def tablesOffset : Nat := r.size + (r.before.flatMap (·.2)).length

/-- The metadata as a whole. -/
def toBytes (tables : Bytes) : Bytes :=
  Bytes.toLittleEndian 4 magic ++ Bytes.toLittleEndian 8 0x10001 ++ Bytes.toLittleEndian 4 r.version.length ++
    r.version ++ Bytes.toLittleEndian 2 0 ++ Bytes.toLittleEndian 2 r.names.length ++
    directory r.size (r.streams tables) ++ (r.streams tables).flatMap (·.2)

/-- The fields of the headers hold what they are to hold, names end at their first zero byte, and no stream in front of
the tables goes by the name of theirs. -/
structure Fits : Prop where
  version : r.version.length < 2 ^ 32
  count : r.names.length < 2 ^ 16
  offset : r.tablesOffset < 2 ^ 32
  names : ∀ name ∈ r.names, 0 ∉ name
  name : streamKey r.name = tablesName
  before : ∀ stream ∈ r.before, streamKey stream.1 ≠ tablesName

end Root

end CilProbe.Metadata
