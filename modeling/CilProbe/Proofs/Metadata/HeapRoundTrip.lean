import CilProbe.Proofs.Metadata.Heap

/-!
# Reading heaps that were written

A heap of names, literal strings or signatures is a zero byte and entries one behind the other; a heap of identifiers
has sixteen bytes for each and no zero byte in front.  Whatever stands around an entry, reading at its offset finds it
(`read_written_heaps`).  The rest of the heap plays no part: what is read is determined by the bytes of the entry
(`string_of_holds`, `userString_of_holds`, `blob_of_holds`).
-/

namespace CilProbe.Metadata

variable {m : Metadata} {heap : Stream} {offset : Nat}

/-! ### How heaps are written -/

/-- A name, which a zero byte ends. -/
def nameEntry (name : String) : Bytes := Utf8.encode name.toList ++ [0]

/-- A literal string: its length, its code units, and a byte that says whether there are special characters. -/
def literalEntry (text : String) (flag : UInt8) : Bytes :=
  Compressed.encode ((Utf16.encode text.toList).length + 1) ++ (Utf16.encode text.toList ++ [flag])

/-- A signature behind its length. -/
def blobEntry (bytes : Bytes) : Bytes := Compressed.encode bytes.length ++ bytes

/-- Entries behind a zero byte. -/
def heapOf (entries : List Bytes) : Bytes := 0 :: entries.flatten

/-- Where the entry with an index stands. -/
def entryOffset (entries : List Bytes) (i : Nat) : Nat := 1 + (entries.take i).flatten.length

/-- The heap of a name begins with these bytes, and the data contains them. -/
def HeapHolds (m : Metadata) (name : String) (bs : Bytes) : Prop :=
  ∃ heap, m.stream? name = some heap ∧ bs.length ≤ heap.size ∧ m.data.Holds heap.offset bs

/-! ### Single entries -/

theorem string_of_holds {name : String} (hzero : '\x00' ∉ name.toList)
    (hlength : (Utf8.encode name.toList).length ≤ maxNameLength) (hheap : m.stream? "#strings" = some heap)
    (hinside : offset + (nameEntry name).length ≤ heap.size)
    (h : m.data.Holds (heap.offset + offset) (nameEntry name)) : m.string offset = name := by
  rw [nameEntry] at h hinside
  rw [List.length_append, List.length_singleton] at hinside
  obtain ⟨rest, hslice⟩ := Buffer.exists_slice_of_holds h
  rw [string, hheap]
  dsimp only
  rw [if_neg (by omega), hslice, List.append_assoc, List.singleton_append, Utf8.decodeToZero_take hzero rest (by omega),
    String.ofList_toList]

private theorem readAt?_of_holds {data : Buffer} {length : Nat} {content : Bytes} (hlength : length < 2 ^ 29)
    (h : data.Holds offset (Compressed.encode length ++ content)) :
    Compressed.readAt? data offset = some (length, (Compressed.encode length).length) := by
  obtain ⟨rest, hslice⟩ := Buffer.exists_slice_of_holds h
  rw [Compressed.readAt?, hslice, List.append_assoc]
  exact Compressed.read?_take (Compressed.read?_encode hlength _) (Compressed.length_encode_le length)

theorem hasEntry_of_holds {length : Nat} {content : Bytes} (hlength : length < 2 ^ 29)
    (hcontent : content.length = length)
    (hinside : offset + (Compressed.encode length ++ content).length ≤ heap.size)
    (h : m.data.Holds (heap.offset + offset) (Compressed.encode length ++ content)) :
    m.HasEntry heap offset length (Compressed.encode length).length := by
  rw [List.length_append] at hinside
  exact ⟨readAt?_of_holds hlength h, by omega⟩

theorem userString_of_holds {text : String} {flag : UInt8} (hlength : (Utf16.encode text.toList).length + 1 < 2 ^ 29)
    (hheap : m.stream? "#us" = some heap) (hoffset : offset ≠ 0)
    (hinside : offset + (literalEntry text flag).length ≤ heap.size)
    (h : m.data.Holds (heap.offset + offset) (literalEntry text flag)) : m.userString offset = .ok text := by
  have hentry := hasEntry_of_holds hlength (by simp) hinside h
  have heven := Utf16.length_encode_mod_two text.toList
  rw [literalEntry, Buffer.holds_append, Buffer.holds_append] at h
  refine userString_eq_ok_iff.2 ⟨heap, _, _, hheap, hoffset, hentry, ?_⟩
  -- The units take an even number of bytes, so that it is the flag that is left out.
  have hcount : (Utf16.encode text.toList).length + 1 - ((Utf16.encode text.toList).length + 1) % 2 =
      (Utf16.encode text.toList).length := by omega
  rw [hcount, Buffer.slice_of_holds h.2.1, Utf16.decode_encode, String.ofList_toList]

theorem blob_of_holds {bytes : Bytes} (hlength : bytes.length < 2 ^ 29) (hheap : m.stream? "#blob" = some heap)
    (hinside : offset + (blobEntry bytes).length ≤ heap.size)
    (h : m.data.Holds (heap.offset + offset) (blobEntry bytes)) : m.blob offset = bytes := by
  have hentry := hasEntry_of_holds hlength rfl hinside h
  have hlt := hentry.lt
  rw [blobEntry, Buffer.holds_append] at h
  rw [blob, hheap]
  dsimp only
  rw [if_neg (by omega), hentry.entryLength?]
  dsimp only
  rw [hentry.heapSlice (Nat.le_refl _), Buffer.slice_of_holds h.2]

theorem guid_of_holds {index : Nat} {bytes : Bytes} (hlength : bytes.length = 16)
    (hheap : m.stream? "#guid" = some heap) (hinside : 16 * (index + 1) ≤ heap.size)
    (h : m.data.Holds (heap.offset + 16 * index) bytes) :
    ∃ g, m.guid (index + 1) = .ok (some g) ∧ g.toBytes = bytes := by
  obtain ⟨g, -, rfl⟩ := Guid.exists_ofBytes?_eq_some hlength
  exact ⟨g, guid_eq_some_iff.2 ⟨heap, ⟨hheap, by omega, hinside⟩, h⟩, rfl⟩

/-! ### Heaps -/

/-- Each entry stands at its offset in the heap. -/
private theorem HeapHolds.exists_entry {α : Type} {name : String} {write : α → Bytes} {xs : List α}
    (h : m.HeapHolds name (heapOf (xs.map write))) {i : Nat} {x : α} (hx : xs[i]? = some x) :
    ∃ heap, m.stream? name = some heap ∧ m.data.Holds (heap.offset + entryOffset (xs.map write) i) (write x) ∧
      entryOffset (xs.map write) i + (write x).length ≤ heap.size := by
  obtain ⟨heap, hheap, hsize, hholds⟩ := h
  have hentry : (xs.map write)[i]? = some (write x) := by rw [List.getElem?_map, hx, Option.map_some]
  generalize xs.map write = entries at hsize hholds hentry ⊢
  obtain ⟨hi, hwritten⟩ := List.getElem?_eq_some_iff.1 hentry
  have hsplit : heapOf entries = (0 :: (entries.take i).flatten) ++ (entries[i] ++ (entries.drop (i + 1)).flatten) := by
    rw [heapOf, List.cons_append, ← List.flatten_cons, ← List.drop_eq_getElem_cons hi, ← List.flatten_append,
      List.take_append_drop]
  have hoffset : (0 :: (entries.take i).flatten).length = entryOffset entries i := by
    rw [List.length_cons, entryOffset, Nat.add_comm]
  rw [hsplit, hwritten] at hsize hholds
  rw [List.length_append, List.length_append, hoffset] at hsize
  rw [Buffer.holds_append, Buffer.holds_append, hoffset] at hholds
  exact ⟨heap, hheap, hholds.2.1, by omega⟩

private theorem guids_read {i : Nat} {guids : List Bytes} (hguids : ∀ bytes ∈ guids, bytes.length = 16)
    (h : m.HeapHolds "#guid" guids.flatten) {bytes : Bytes} (hbytes : guids[i]? = some bytes) :
    ∃ g, m.guid (i + 1) = .ok (some g) ∧ g.toBytes = bytes := by
  obtain ⟨heap, hheap, hsize, hholds⟩ := h
  obtain ⟨hi, rfl⟩ := List.getElem?_eq_some_iff.1 hbytes
  rw [← List.flatMap_id] at hholds
  have hentry := Buffer.Holds.flatMap_getElem hguids hholds hbytes
  rw [List.length_flatten, List.map_congr_left hguids, List.map_const', List.sum_replicate_nat] at hsize
  rw [Nat.mul_comm i] at hentry
  exact guid_of_holds (hguids _ (List.getElem_mem hi)) hheap (by omega) hentry

/-- The offset of a token for a literal string. -/
theorem userStringOf_token (h : offset < 2 ^ 24) : m.userStringOf (0x70 * 2 ^ 24 + offset) = m.userString offset := by
  have hstring : ((0x70 * 2 ^ 24 + offset : Int) / 2 ^ 24) = 0x70 := by omega
  have hrid : Token.rid (0x70 * 2 ^ 24 + offset) = offset := by
    rw [Token.rid]
    omega
  rw [userStringOf, Token.isString, hstring, hrid]
  rfl

/-- What was written is read.  Each heap may stand anywhere in the data, and anything may stand around it and behind its
entries.  A literal string is found by its token too, if its offset fits into one. -/
theorem read_written_heaps (m : Metadata) :
    (∀ names : List String, m.HeapHolds "#strings" (heapOf (names.map nameEntry)) →
      ∀ (i : Nat) (name : String), names[i]? = some name → '\x00' ∉ name.toList →
        (Utf8.encode name.toList).length ≤ maxNameLength →
        m.stringAt (entryOffset (names.map nameEntry) i) = name) ∧
    (∀ literals : List (String × UInt8),
      m.HeapHolds "#us" (heapOf (literals.map fun (text, flag) => literalEntry text flag)) →
      ∀ (i : Nat) (text : String) (flag : UInt8), literals[i]? = some (text, flag) →
        (Utf16.encode text.toList).length + 1 < 2 ^ 29 →
        let offset := entryOffset (literals.map fun (text, flag) => literalEntry text flag) i
        m.userStringAt offset = .ok text ∧
          (offset < 2 ^ 24 → m.userStringOf (0x70 * 2 ^ 24 + offset) = .ok text)) ∧
    (∀ blobs : List Bytes, m.HeapHolds "#blob" (heapOf (blobs.map blobEntry)) →
      ∀ (i : Nat) (bytes : Bytes), blobs[i]? = some bytes → bytes.length < 2 ^ 29 →
        m.blobAt (entryOffset (blobs.map blobEntry) i) = .ok bytes) ∧
    ∀ guids : List Bytes, (∀ bytes ∈ guids, bytes.length = 16) → m.HeapHolds "#guid" guids.flatten →
      ∀ (i : Nat) (bytes : Bytes), guids[i]? = some bytes →
        ∃ g : Guid, m.guidAt (i + 1 : Nat) = .ok (some g) ∧ g.toBytes = bytes := by
  refine ⟨?names, ?literals, ?blobs, ?guids⟩
  case names =>
    intro names h i name hname hzero hlength
    obtain ⟨heap, hheap, hentry, hinside⟩ := h.exists_entry hname
    exact string_of_holds hzero hlength hheap hinside hentry
  case literals =>
    intro literals h i text flag hliteral hlength
    obtain ⟨heap, hheap, hentry, hinside⟩ := h.exists_entry hliteral
    have hoffset : entryOffset (literals.map fun (text, flag) => literalEntry text flag) i ≠ 0 := by
      rw [entryOffset]
      omega
    have hread := userString_of_holds hlength hheap hoffset hinside hentry
    exact ⟨hread, fun htoken => (userStringOf_token htoken).trans hread⟩
  case blobs =>
    intro blobs h i bytes hblob hlength
    obtain ⟨heap, hheap, hentry, hinside⟩ := h.exists_entry hblob
    exact congrArg Except.ok (blob_of_holds hlength hheap hinside hentry)
  case guids =>
    intro guids hguids h i bytes hbytes
    exact guids_read hguids h hbytes

/-! ### All four heaps in one piece of metadata -/

private def fourNames : List String := ["<Module>", "", "Größe😀"]

private def fourLiterals : List (String × UInt8) := [("Hi", 0), ("", 0), ("a😀", 1)]

/-- The last one is so long that its length takes two bytes. -/
private def fourBlobs : List Bytes := [[6, 8], [], List.replicate 130 7]

private def fourGuids : List Bytes := [[0, 1, 2, 3, 4, 5, 6, 7, 8, 9, 10, 11, 12, 13, 14, 15], List.replicate 16 0xFF]

private def fourHeaders : Bytes :=
  [0x42, 0x53, 0x4A, 0x42, 1, 0, 1, 0, 0, 0, 0, 0, 4, 0, 0, 0, 0x76, 0x34, 0, 0, 0, 0, 5, 0,
    100, 0, 0, 0, 24, 0, 0, 0, 0x23, 0x7E, 0, 0,
    124, 0, 0, 0, 24, 0, 0, 0, 0x23, 0x53, 0x74, 0x72, 0x69, 0x6E, 0x67, 0x73, 0, 0, 0, 0,
    148, 0, 0, 0, 20, 0, 0, 0, 0x23, 0x55, 0x53, 0,
    168, 0, 0, 0, 32, 0, 0, 0, 0x23, 0x47, 0x55, 0x49, 0x44, 0, 0, 0,
    200, 0, 0, 0, 140, 0, 0, 0, 0x23, 0x42, 0x6C, 0x6F, 0x62, 0, 0, 0,
    0, 0, 0, 0, 2, 0, 0, 1, 0, 0, 0, 0, 0, 0, 0, 0, 0, 0, 0, 0, 0, 0, 0, 0]

private def fourHeaps : Buffer :=
  List.toArray <| List.flatten [fourHeaders, heapOf (fourNames.map nameEntry), [0],
    heapOf (fourLiterals.map fun (text, flag) => literalEntry text flag), [0, 0, 0], fourGuids.flatten,
    heapOf (fourBlobs.map blobEntry), [0, 0, 0]]

/-- Whether a heap that begins with these bytes lies at an offset. -/
private def hasHeap (m : Metadata) (name : String) (heap : Stream) (bs : Bytes) : Bool :=
  m.stream? name == some heap && decide (bs.length ≤ heap.size) && decide (heap.offset ≤ m.data.size) &&
    (m.data.toList.drop heap.offset).take bs.length == bs

private theorem heapHolds_of_hasHeap {name : String} {bs : Bytes} (h : hasHeap m name heap bs) :
    m.HeapHolds name bs := by
  simp only [hasHeap, Bool.and_eq_true, beq_iff_eq, decide_eq_true_eq] at h
  obtain ⟨⟨⟨hheap, hsize⟩, hinside⟩, hslice⟩ := h
  rw [← Buffer.slice_eq] at hslice
  exact ⟨heap, hheap, hsize, hslice ▸ Buffer.holds_slice hinside bs.length⟩

private def hasFourHeaps (m : Metadata) : Bool :=
  hasHeap m "#strings" ⟨124, 24⟩ (heapOf (fourNames.map nameEntry)) &&
    hasHeap m "#us" ⟨148, 20⟩ (heapOf (fourLiterals.map fun (text, flag) => literalEntry text flag)) &&
    hasHeap m "#blob" ⟨200, 140⟩ (heapOf (fourBlobs.map blobEntry)) && hasHeap m "#guid" ⟨168, 32⟩ fourGuids.flatten

private theorem read_fourHeaps : ∃ m, read fourHeaps = .ok m ∧ hasFourHeaps m :=
  exists_of_toOption_any (by decide +kernel)

/-- The last entry of each heap is read. -/
theorem read_written_heaps_fourHeaps :
    ∃ m, read fourHeaps = .ok m ∧
      m.HeapHolds "#strings" (heapOf (fourNames.map nameEntry)) ∧ fourNames[2]? = some "Größe😀" ∧
      m.HeapHolds "#us" (heapOf (fourLiterals.map fun (text, flag) => literalEntry text flag)) ∧
      fourLiterals[2]? = some ("a😀", 1) ∧
      m.HeapHolds "#blob" (heapOf (fourBlobs.map blobEntry)) ∧ fourBlobs[2]? = some (List.replicate 130 7) ∧
      m.HeapHolds "#guid" fourGuids.flatten ∧ fourGuids[1]? = some (List.replicate 16 0xFF) ∧
      m.stringAt (entryOffset (fourNames.map nameEntry) 2) = "Größe😀" ∧
      m.userStringAt (entryOffset (fourLiterals.map fun (text, flag) => literalEntry text flag) 2) = .ok "a😀" ∧
      m.userStringOf (0x70 * 2 ^ 24 + entryOffset (fourLiterals.map fun (text, flag) => literalEntry text flag) 2) =
        .ok "a😀" ∧
      m.blobAt (entryOffset (fourBlobs.map blobEntry) 2) = .ok (List.replicate 130 7) ∧
      ∃ g : Guid, m.guidAt (2 : Nat) = .ok (some g) ∧ g.toBytes = List.replicate 16 0xFF := by
  obtain ⟨m, hread, hheaps⟩ := read_fourHeaps
  simp only [hasFourHeaps, Bool.and_eq_true] at hheaps
  obtain ⟨⟨⟨hnames, hliterals⟩, hblobs⟩, hguids⟩ := hheaps
  replace hnames := heapHolds_of_hasHeap hnames
  replace hliterals := heapHolds_of_hasHeap hliterals
  replace hblobs := heapHolds_of_hasHeap hblobs
  replace hguids := heapHolds_of_hasHeap hguids
  obtain ⟨names, literals, blobs, guids⟩ := read_written_heaps m
  have hname := names fourNames hnames 2 "Größe😀" rfl (by decide +kernel) (by decide +kernel)
  obtain ⟨hliteral, htoken⟩ := literals fourLiterals hliterals 2 "a😀" 1 rfl (by decide +kernel)
  have hblob := blobs fourBlobs hblobs 2 (List.replicate 130 7) rfl (by simp)
  have hguid := guids fourGuids (by decide) hguids 1 (List.replicate 16 0xFF) rfl
  exact ⟨m, hread, hnames, rfl, hliterals, rfl, hblobs, rfl, hguids, rfl, hname, hliteral, htoken (by decide +kernel),
    hblob, hguid⟩

end CilProbe.Metadata
