import CilProbe.Proofs.Metadata.Tables
import Mathlib.Data.List.Nodup

/-!
# The directory of the streams

Behind the version of metadata stand the headers of its streams.  They are read one behind the other, whatever their
names are (`readStreams_of_holds`), and kept one by one (`keepStream`).  So of headers with one key the first counts,
and a header that was put behind the others to mislead a reader changes nothing (`first_stream_of_key`).
-/

namespace CilProbe.Metadata

/-! ### Names of streams -/

private theorem zeroFrom?_of_holds {data : Buffer} {offset : Nat} {name rest : Bytes} (hname : 0 ∉ name)
    (h : data.Holds offset (name ++ 0 :: rest)) : zeroFrom? data offset = some (offset + name.length) := by
  induction name generalizing offset with
  | nil =>
    obtain ⟨hlt, hzero⟩ := Buffer.getElem_of_holds h
    rw [zeroFrom?, dif_pos hlt, if_pos hzero]
    rfl
  | cons b name ih =>
    obtain ⟨hlt, hb⟩ := Buffer.getElem_of_holds h
    rw [List.mem_cons, not_or] at hname
    have hsplit : data.Holds offset ([b] ++ (name ++ 0 :: rest)) := h
    have hrest : data.Holds (offset + 1) (name ++ 0 :: rest) := (Buffer.holds_append.1 hsplit).2
    rw [zeroFrom?, dif_pos hlt, if_neg (hb ▸ Ne.symm hname.1), ih hname.2 hrest, List.length_cons]
    congr 1
    omega

private theorem paddedName_eq (name : Bytes) : ∃ rest, paddedName name = name ++ 0 :: rest :=
  ⟨List.replicate (3 - name.length % 4) 0, by
    rw [paddedName, ← List.replicate_succ]
    congr 2
    omega⟩

theorem length_paddedName (name : Bytes) : (paddedName name).length = (name.length / 4 + 1) * 4 := by
  rw [paddedName, List.length_append, List.length_replicate]
  omega

/-! ### Headers -/

/-- The header of a stream with this name. -/
def headerBytes (stream : Stream) (name : Bytes) : Bytes :=
  Bytes.toLittleEndian 4 stream.offset ++ Bytes.toLittleEndian 4 stream.size ++ paddedName name

/-- A stream is kept under its name, unless there is one of this name. -/
def keepStream (found : List (String × Stream)) (entry : String × Stream) : List (String × Stream) :=
  if (found.lookup entry.1).isSome then found else found ++ [entry]

/-- What is read of a header. -/
def entryOf (header : Stream × Bytes) : String × Stream :=
  (streamKey header.2, ⟨header.1.offset % 256 ^ 4, header.1.size % 256 ^ 4⟩)

/-- The headers are read in order, and of streams with one name the first is kept. -/
theorem readStreams_of_holds {data : Buffer} {headers : List (Stream × Bytes)} (hnames : ∀ header ∈ headers, 0 ∉ header.2)
    {cursor : Nat} (h : data.Holds cursor (headers.flatMap fun header => headerBytes header.1 header.2))
    (found : List (String × Stream)) :
    readStreams data headers.length cursor found = .ok ((headers.map entryOf).foldl keepStream found) := by
  induction headers generalizing cursor found with
  | nil => rfl
  | cons header headers ih =>
    obtain ⟨stream, name⟩ := header
    simp only [List.flatMap_cons, headerBytes, Buffer.holds_append, List.length_append, Bytes.length_toLittleEndian,
      length_paddedName] at h
    obtain ⟨⟨⟨hoffset, hsize⟩, hname⟩, hrest⟩ := h
    obtain ⟨padding, hpadded⟩ := paddedName_eq name
    rw [hpadded] at hname
    have hzero := zeroFrom?_of_holds (hnames (stream, name) (by simp)) hname
    have hslice : data.slice (cursor + 8) name.length = name :=
      Buffer.slice_of_holds (Buffer.holds_append.1 hname).1
    have hlength : cursor + 8 + name.length - (cursor + 8) = name.length := by omega
    have hnext : cursor + 8 + (name.length / 4 + 1) * 4 = cursor + (4 + 4 + (name.length / 4 + 1) * 4) := by omega
    rw [List.length_cons, readStreams]
    simp only [header_toLittleEndian hoffset, header_toLittleEndian hsize, hzero, hlength, hslice, hnext, bind,
      Except.bind]
    exact ih (fun header hheader => hnames header (by simp [hheader])) hrest _

/-! ### The first stream of a name -/

theorem lookup_keepStream (found : List (String × Stream)) (entry : String × Stream) (key : String) :
    (keepStream found entry).lookup key = (found.lookup key).or ([entry].lookup key) := by
  rw [keepStream]
  split
  · next hfound =>
    by_cases hkey : key = entry.1
    · rw [← hkey] at hfound
      rw [Option.or_of_isSome hfound]
    · rw [List.lookup_cons, beq_eq_false_iff_ne.2 hkey]
      exact Option.or_none.symm
  · rw [List.lookup_append]

/-- Of streams with one name the first is found, and those that were found before go before all. -/
theorem lookup_foldl_keepStream (found entries : List (String × Stream)) (key : String) :
    (entries.foldl keepStream found).lookup key = (found.lookup key).or (entries.lookup key) := by
  induction entries generalizing found with
  | nil => exact Option.or_none.symm
  | cons entry entries ih =>
    rw [List.foldl_cons, ih, lookup_keepStream, Option.or_assoc, ← List.lookup_append, List.singleton_append]

private theorem nodup_keepStream {found : List (String × Stream)} (h : (found.map (·.1)).Nodup) (entry : String × Stream) :
    ((keepStream found entry).map (·.1)).Nodup := by
  rw [keepStream]
  split
  · exact h
  · next hnew =>
    rw [List.map_append, List.map_singleton, ← List.concat_eq_append]
    refine h.concat fun hmem => hnew ?_
    obtain ⟨entry', hentry', heq⟩ := List.mem_map.1 hmem
    exact List.lookup_isSome_iff.2 ⟨entry', hentry', by simp [heq]⟩

theorem nodup_foldl_keepStream {found : List (String × Stream)} (h : (found.map (·.1)).Nodup)
    (entries : List (String × Stream)) : ((entries.foldl keepStream found).map (·.1)).Nodup := by
  induction entries generalizing found with
  | nil => exact h
  | cons entry entries ih => exact ih (nodup_keepStream h entry)

/-- Streams whose names were all found before change nothing. -/
theorem foldl_keepStream_of_found {found entries : List (String × Stream)}
    (h : ∀ entry ∈ entries, (found.lookup entry.1).isSome) : entries.foldl keepStream found = found := by
  induction entries with
  | nil => rfl
  | cons entry entries ih =>
    rw [List.foldl_cons, keepStream, if_pos (h entry (by simp)), ih fun entry hentry => h entry (by simp [hentry])]

/-! ### The headers of metadata -/

/-- What stands in front of the streams: the version behind eight bytes that are not looked at, and the headers behind
two such bytes and their number. -/
def frontBytes (format version flags : Bytes) (headers : List (Stream × Bytes)) : Bytes :=
  Bytes.toLittleEndian 4 magic ++ format ++ Bytes.toLittleEndian 4 version.length ++ version ++ flags ++
    Bytes.toLittleEndian 2 headers.length ++ headers.flatMap fun header => headerBytes header.1 header.2

theorem headed_of_holds {data : Buffer} {format version flags : Bytes} {headers : List (Stream × Bytes)}
    (hformat : format.length = 8) (hflags : flags.length = 2) (hversion : version.length < 2 ^ 32)
    (hcount : headers.length < 2 ^ 16) (hnames : ∀ header ∈ headers, 0 ∉ header.2)
    (h : data.Holds 0 (frontBytes format version flags headers)) :
    Headed data version.length headers.length ((headers.map entryOf).foldl keepStream []) := by
  simp only [frontBytes, Buffer.holds_append, List.length_append, Bytes.length_toLittleEndian, hformat, hflags] at h
  obtain ⟨⟨⟨⟨⟨⟨h₀, -⟩, h₁₂⟩, hbytes⟩, -⟩, h₁₈⟩, hheaders⟩ := h
  refine ⟨Nat.le_trans (Nat.le_add_right ..) hbytes.le, header_of_lt (by decide) h₀, header_of_lt hversion h₁₂,
    header_of_lt hcount ?_, readStreams_of_holds hnames ?_ []⟩
  · convert h₁₈ using 1
    omega
  · convert hheaders using 1
    omega

namespace Headed

variable {data : Buffer} {versionLength count : Nat} {streams : List (String × Stream)}

theorem streams_of_read (h : Headed data versionLength count streams) {m : Metadata} (hread : read data = .ok m) :
    m.streams = streams := by
  obtain ⟨-, versionLength', count', _, _, _, _, _, hversion, hcount, hstreams, -⟩ := exists_of_read hread
  cases h.read_version.symm.trans hversion
  cases h.read_count.symm.trans hcount
  exact Except.ok.inj (hstreams.symm.trans h.read_streams)

theorem read_of_no_tables (h : Headed data versionLength count streams) (hnone : streams.lookup tablesName = none) :
    read data = .error .noTables := by
  simp only [read, if_neg (Nat.not_lt.2 h.le_size), h.read_magic, h.read_version, h.read_count, h.read_streams, hnone,
    ne_eq, not_true_eq_false, if_false, bind, Except.bind]
  rfl

end Headed

/-! ### Names in ASCII -/

/-- The header of a stream with a name in ASCII that holds no null character. -/
structure StreamHeader where
  stream : Stream
  name : String
  offset_lt : stream.offset < 2 ^ 32
  size_lt : stream.size < 2 ^ 32
  ascii : ∀ c ∈ name.toList, 0 < c.toNat ∧ c.toNat < 128

namespace StreamHeader

variable (h : StreamHeader)

def nameBytes : Bytes := h.name.toList.map fun c => c.toNat.toUInt8

/-- The name in small letters, where `#-` counts as `#~`. -/
def key : String := if h.name.toLower = "#-" then "#~" else h.name.toLower

theorem zero_notMem_nameBytes : 0 ∉ h.nameBytes := by
  intro hzero
  obtain ⟨c, hc, hzero⟩ := List.mem_map.1 hzero
  obtain ⟨hpos, hlt⟩ := h.ascii c hc
  have hnat := congrArg UInt8.toNat hzero
  rw [Nat.toUInt8_eq, UInt8.toNat_ofNat'] at hnat
  simp only [UInt8.toNat_zero] at hnat
  omega

theorem streamKey_nameBytes : streamKey h.nameBytes = h.key := by
  have hlower : String.ofList (h.nameBytes.map fun b =>
      if b < 0x80 then (Char.ofNat b.toNat).toLower else Utf8.replacement) = h.name.toLower := by
    refine String.toList_injective ?_
    have hmap : h.name.toLower.toList = h.name.toList.map Char.toLower := String.toList_map
    rw [String.toList_ofList, nameBytes, List.map_map, hmap]
    refine List.map_congr_left fun c hc => ?_
    obtain ⟨-, hlt⟩ := h.ascii c hc
    have hnat : c.toNat.toUInt8.toNat = c.toNat := UInt8.toNat_ofNat_of_lt' (Nat.lt_trans hlt (by decide))
    have hascii : c.toNat.toUInt8 < 0x80 := by
      rw [UInt8.lt_iff_toNat_lt, hnat]
      exact hlt
    rw [Function.comp_apply, if_pos hascii, hnat, Char.ofNat_toNat]
  rw [streamKey, hlower, key, tablesName]

/-- What stands in metadata of a header. -/
def written : Stream × Bytes := (h.stream, h.nameBytes)

theorem entryOf_written : entryOf h.written = (h.key, h.stream) := by
  rw [entryOf, written, streamKey_nameBytes, Nat.mod_eq_of_lt h.offset_lt, Nat.mod_eq_of_lt h.size_lt]

end StreamHeader

/-! ### Metadata with given headers -/

/-- Headers behind a version, and whatever stands behind them. -/
structure Heading where
  /-- What stands between the first four bytes and the length of the version. -/
  format : Bytes
  version : Bytes
  /-- What stands between the version and the number of streams. -/
  flags : Bytes
  headers : List StreamHeader
  rest : Bytes
  length_format : format.length = 8
  length_version : version.length < 2 ^ 32
  length_flags : flags.length = 2
  length_headers : headers.length < 2 ^ 16

namespace Heading

variable (d : Heading)

def toBytes : Bytes := frontBytes d.format d.version d.flags (d.headers.map (·.written)) ++ d.rest

/-- The streams under their keys: of those with one key the first. -/
def streams : List (String × Stream) := (d.headers.map fun h => (h.key, h.stream)).foldl keepStream []

theorem headed_toBytes : Headed d.toBytes.toArray d.version.length d.headers.length d.streams := by
  have hnames : ∀ header ∈ d.headers.map (·.written), 0 ∉ header.2 := by
    intro header hheader
    obtain ⟨h, -, rfl⟩ := List.mem_map.1 hheader
    exact h.zero_notMem_nameBytes
  have hcount : (d.headers.map (·.written)).length < 2 ^ 16 := by
    rw [List.length_map]
    exact d.length_headers
  have hfront := (Buffer.holds_append.1 (Buffer.holds_toArray d.toBytes)).1
  have hheaded := headed_of_holds d.length_format d.length_flags d.length_version hcount hnames hfront
  rw [streams]
  simpa only [List.length_map, List.map_map, Function.comp_def, StreamHeader.entryOf_written] using hheaded

theorem lookup_streams (key : String) :
    d.streams.lookup key = (d.headers.find? (·.key == key)).map (·.stream) := by
  rw [streams, lookup_foldl_keepStream, List.lookup_nil, Option.none_or]
  induction d.headers with
  | nil => rfl
  | cons h headers ih =>
    rw [List.map_cons, List.lookup_cons, List.find?_cons, ih, BEq.comm]
    cases h.key == key <;> rfl

/-- Headers whose keys all occurred before add nothing. -/
theorem streams_of_append {d d' : Heading} {extra : List StreamHeader} (hheaders : d'.headers = d.headers ++ extra)
    (hextra : ∀ h ∈ extra, ∃ first ∈ d.headers, first.key = h.key) : d'.streams = d.streams := by
  rw [streams, hheaders, List.map_append, List.foldl_append]
  refine foldl_keepStream_of_found fun entry hentry => ?_
  obtain ⟨h, hh, rfl⟩ := List.mem_map.1 hentry
  obtain ⟨first, hfirst, hkey⟩ := hextra h hh
  change (d.streams.lookup h.key).isSome
  rw [lookup_streams, Option.isSome_map, List.find?_isSome]
  exact ⟨first, hfirst, beq_iff_eq.2 hkey⟩

end Heading

/-- If metadata is accepted, its streams are those of the headers, each key with the first header that has it. Further
headers with keys that occur change nothing, and without a header for the tables metadata is refused. -/
theorem first_stream_of_key (d : Heading) :
    (∀ m, read d.toBytes.toArray = .ok m → (m.streams.map (·.1)).Nodup ∧
      ∀ key, m.streams.lookup key = (d.headers.find? (·.key == key)).map (·.stream)) ∧
    (∀ (d' : Heading) (extra : List StreamHeader), d'.headers = d.headers ++ extra →
      (∀ h ∈ extra, ∃ first ∈ d.headers, first.key = h.key) →
      ∀ m m', read d.toBytes.toArray = .ok m → read d'.toBytes.toArray = .ok m' → m'.streams = m.streams) ∧
    ((∀ h ∈ d.headers, h.key ≠ "#~") → read d.toBytes.toArray = .error .noTables) := by
  refine ⟨fun m hm => ?_, fun d' extra hheaders hextra m m' hm hm' => ?_, fun hnone => ?_⟩
  · rw [d.headed_toBytes.streams_of_read hm]
    have hnodup : (([] : List (String × Stream)).map (·.1)).Nodup := List.nodup_nil
    exact ⟨nodup_foldl_keepStream hnodup _, d.lookup_streams⟩
  · rw [d.headed_toBytes.streams_of_read hm, d'.headed_toBytes.streams_of_read hm']
    exact Heading.streams_of_append hheaders hextra
  · refine d.headed_toBytes.read_of_no_tables ?_
    rw [d.lookup_streams, Option.map_eq_none_iff, List.find?_eq_none]
    intro h hh hkey
    exact hnone h hh (beq_iff_eq.1 hkey)

/-- Headers in front of nothing but zeros, which are no tables at all. -/
private def emptyTables (headers : List StreamHeader) (hlength : headers.length < 2 ^ 16) : Heading where
  format := [1, 0, 1, 0, 0, 0, 0, 0]
  version := [0x76, 0x34, 0x2E]
  flags := [0, 0]
  headers := headers
  rest := List.replicate 60 0
  length_format := rfl
  length_version := by decide
  length_flags := rfl
  length_headers := hlength

private def strings : StreamHeader := ⟨⟨0, 4⟩, "#Strings", by decide, by decide, by simp⟩

private def plainTables : StreamHeader := ⟨⟨100, 24⟩, "#-", by decide, by decide, by simp⟩

private def capitals : StreamHeader := ⟨⟨8, 8⟩, "#STRINGS", by decide, by decide, by simp⟩

private def fakeTables : StreamHeader := ⟨⟨5, 6⟩, "#~", by decide, by decide, by simp⟩

theorem first_stream_of_key_fake : ∃ m m',
    read (emptyTables [strings, plainTables, capitals] (by decide)).toBytes.toArray = .ok m ∧
      read (emptyTables [strings, plainTables, capitals, fakeTables] (by decide)).toBytes.toArray = .ok m' ∧
      m.streams.lookup "#~" = some ⟨100, 24⟩ ∧ m.streams.lookup "#strings" = some ⟨0, 4⟩ ∧ m'.streams = m.streams ∧
      read (emptyTables [capitals, strings] (by decide)).toBytes.toArray = .error .noTables := by
  have haccepted : (read (emptyTables [strings, plainTables, capitals] (by decide)).toBytes.toArray).toOption.isSome := by
    decide +kernel
  have haccepted' :
      (read (emptyTables [strings, plainTables, capitals, fakeTables] (by decide)).toBytes.toArray).toOption.isSome := by
    decide +kernel
  obtain ⟨m, hm⟩ := Option.isSome_iff_exists.1 haccepted
  obtain ⟨m', hm'⟩ := Option.isSome_iff_exists.1 haccepted'
  have hread := eq_ok_of_toOption hm
  have hread' := eq_ok_of_toOption hm'
  obtain ⟨hfirst, hextra, -⟩ := first_stream_of_key (emptyTables [strings, plainTables, capitals] (by decide))
  obtain ⟨-, -, hnone⟩ := first_stream_of_key (emptyTables [capitals, strings] (by decide))
  exact ⟨m, m', hread, hread', ((hfirst m hread).2 "#~").trans (by decide +kernel),
    ((hfirst m hread).2 "#strings").trans (by decide +kernel),
    hextra _ [fakeTables] rfl (by decide +kernel) m m' hread hread', hnone (by decide +kernel)⟩

end CilProbe.Metadata
