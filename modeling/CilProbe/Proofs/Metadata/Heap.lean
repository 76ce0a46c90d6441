import CilProbe.Metadata.Query
import CilProbe.Proofs.Buffer
import CilProbe.Proofs.Failure

/-!
# References into heaps

The headers say where a heap stands and how large it is, and nothing compares that with the data.  So a heap may lie in
the data in part or not at all, and each reference into it is checked on its own.

* A bad reference to a name or a signature gives an empty one, and what is found lies inside the heap and inside the
  data (`references_degrade`).  An identifier of which the data holds only a part is an error
  (`guid_cut_off`), not a missing one.
* A literal string is found if its entry lies inside the declared heap (`literals_read`).  Where the data ends before
  the entry does, it is cut off (`userString_shortened`).
-/

namespace CilProbe.Metadata

variable {m : Metadata} {heap : Stream} {offset length size : Nat}

/-! ### Entries -/

/-- An entry of `length` bytes behind the length itself, which takes `size` bytes.  The declared heap contains it; the
data contains at least the length. -/
structure HasEntry (m : Metadata) (heap : Stream) (offset length size : Nat) : Prop where
  read : Compressed.readAt? m.data (heap.offset + offset) = some (length, size)
  inside : offset + size + length ≤ heap.size

/-- The length of an entry is read from the bytes of the data that the declared heap contains. -/
theorem entryLength?_eq_some_iff : m.entryLength? heap offset = some (length, size) ↔
    Compressed.readAt? m.data (heap.offset + offset) = some (length, size) ∧ offset + size ≤ heap.size := by
  rw [entryLength?, heapSlice, Compressed.readAt?, Buffer.slice_min]
  constructor
  · intro h
    obtain ⟨hpos, hle⟩ := Compressed.length_of_read? h
    have hread := Compressed.read?_append h ((m.data.slice (heap.offset + offset) 4).drop (heap.size - offset))
    rw [List.take_append_drop] at hread
    rw [List.length_take] at hle
    exact ⟨hread, by omega⟩
  · rintro ⟨hread, hinside⟩
    exact Compressed.read?_take hread (by omega)

theorem HasEntry.entryLength? (h : m.HasEntry heap offset length size) :
    m.entryLength? heap offset = some (length, size) :=
  entryLength?_eq_some_iff.2 ⟨h.read, by have := h.inside; omega⟩

theorem HasEntry.lt (h : m.HasEntry heap offset length size) : offset < heap.size := by
  obtain ⟨hpos, -⟩ := Compressed.length_of_read? h.read
  have := h.inside
  omega

/-- The declared heap contains the content, so that only the end of the data cuts it. -/
theorem HasEntry.heapSlice (h : m.HasEntry heap offset length size) {count : Nat} (hcount : count ≤ length) :
    m.heapSlice heap (offset + size) count = m.data.slice (heap.offset + offset + size) count := by
  have hinside := h.inside
  rw [Metadata.heapSlice, Nat.min_eq_left (by omega), Nat.add_assoc]

/-! ### Literal strings -/

theorem userString_eq_ok_iff {text : String} : m.userString offset = .ok text ↔
    ∃ heap length size, m.stream? "#us" = some heap ∧ offset ≠ 0 ∧ m.HasEntry heap offset length size ∧
      text = String.ofList (Utf16.decode (m.data.slice (heap.offset + offset + size) (length - length % 2))) := by
  rw [userString]
  constructor
  · intro h
    split at h
    · contradiction
    next heap hheap =>
    split at h
    · contradiction
    next hoffset =>
    split at h
    · contradiction
    next length size hlength =>
    split at h
    · contradiction
    next hinside =>
    have hentry : m.HasEntry heap offset length size :=
      ⟨(entryLength?_eq_some_iff.1 hlength).1, Nat.not_lt.1 hinside⟩
    rw [hentry.heapSlice (Nat.sub_le ..)] at h
    cases h
    exact ⟨heap, length, size, hheap, fun hzero => hoffset (.inl hzero), hentry, rfl⟩
  · rintro ⟨heap, length, size, hheap, hoffset, hentry, rfl⟩
    have hlt := hentry.lt
    simp only [hheap, hentry.entryLength?, hentry.heapSlice (Nat.sub_le ..)]
    rw [if_neg (by omega), if_neg (Nat.not_lt.2 hentry.inside)]

theorem userString_fails (m : Metadata) (offset : Nat) :
    OnlyFails (·.category = .missing) (m.userString offset) := by
  rw [userString]
  split
  · exact .error rfl
  split
  · exact .error rfl
  split
  · exact .error rfl
  split
  · exact .error rfl
  · exact .ok _

/-- Below zero there is one more way to fail: the heap holds less bytes than are counted back. -/
private theorem userStringAt_negSucc_fails (m : Metadata) (n : Nat) :
    OnlyFails (fun e => e.category = .missing ∨ e = .beforeHeap ∧
      ∃ heap, m.stream? "#us" = some heap ∧ (m.data.slice heap.offset heap.size).length < n + 1)
      (m.userStringAt (.negSucc n)) := by
  rw [userStringAt]
  split
  · exact .error (.inl rfl)
  next heap hheap =>
  dsimp only
  split
  · next hbefore =>
    refine .error (.inr ⟨rfl, heap, hheap, ?_⟩)
    rw [Compressed.readFrom?, Option.map_eq_none_iff, Position.from?, heapBytes] at hbefore
    split at hbefore
    · contradiction
    · omega
  · exact .error (.inl rfl)
  · split
    · exact .error (.inl rfl)
    · exact .ok _

/-- What is returned of the content of an entry is all of it if the data holds all of it, and less otherwise. -/
private theorem length_content_iff (h : m.HasEntry heap offset length size) :
    (m.data.slice (heap.offset + offset + size) (length - length % 2)).length = length - length % 2 ↔
      heap.offset + offset + size + (length - length % 2) ≤ m.data.size := by
  obtain ⟨hpos, hle⟩ := Compressed.length_of_read? h.read
  rw [Buffer.length_slice] at hle ⊢
  omega

/-- A literal string is found if there is an entry at its offset that the declared heap contains; otherwise it is
missing.  Its text is that of the whole content if the data holds that, and else of what the data holds of it.  An
offset below zero, which counts from the end of the heap, may also lie before the heap. -/
theorem literals_read (m : Metadata) :
    (∀ (offset : Nat) (text : String), m.userStringAt offset = .ok text ↔
      ∃ heap length size, m.stream? "#us" = some heap ∧ offset ≠ 0 ∧ m.HasEntry heap offset length size ∧
        text = String.ofList (Utf16.decode (m.data.slice (heap.offset + offset + size) (length - length % 2)))) ∧
    (∀ (offset : Nat) (e : LookupError), m.userStringAt offset = .error e → e.category = .missing) ∧
    (∀ (heap : Stream) (offset length size : Nat), m.HasEntry heap offset length size →
      ((m.data.slice (heap.offset + offset + size) (length - length % 2)).length = length - length % 2 ↔
        heap.offset + offset + size + (length - length % 2) ≤ m.data.size)) ∧
    ∀ (offset : Int) (e : LookupError), offset < 0 → m.userStringAt offset = .error e →
      e.category = .missing ∨ e = .beforeHeap ∧
        ∃ heap, m.stream? "#us" = some heap ∧ (m.data.slice heap.offset heap.size).length < -offset := by
  refine ⟨fun offset text => userString_eq_ok_iff, userString_fails m, fun _ _ _ _ => length_content_iff, ?_⟩
  intro offset e hneg he
  cases offset with
  | ofNat n => exact absurd hneg (Int.not_lt.2 (Int.natCast_nonneg n))
  | negSucc n =>
    obtain hmissing | ⟨rfl, heap, hheap, hlength⟩ := userStringAt_negSucc_fails m n e he
    · exact .inl hmissing
    · exact .inr ⟨rfl, heap, hheap, by omega⟩

/-- Metadata without tables, with heaps of literal strings and identifiers that are declared to be larger than the data.
The one entry has a length of thirteen bytes, of which there are four. -/
private def cutHeaps : Buffer :=
  #[0x42, 0x53, 0x4A, 0x42, 1, 0, 1, 0, 0, 0, 0, 0, 4, 0, 0, 0, 0x76, 0x34, 0, 0, 0, 0, 3, 0,
    64, 0, 0, 0, 24, 0, 0, 0, 0x23, 0x7E, 0, 0,
    88, 0, 0, 0, 16, 0, 0, 0, 0x23, 0x55, 0x53, 0,
    88, 0, 0, 0, 16, 0, 0, 0, 0x23, 0x47, 0x55, 0x49, 0x44, 0, 0, 0,
    0, 0, 0, 0, 2, 0, 0, 1, 0, 0, 0, 0, 0, 0, 0, 0, 0, 0, 0, 0, 0, 0, 0, 0,
    0, 13, 0x41, 0, 0x42, 0]

private def hasCutHeaps (m : Metadata) : Bool :=
  m.data.size == 94 && m.stream? "#us" == some ⟨88, 16⟩ && m.stream? "#guid" == some ⟨88, 16⟩ &&
    Compressed.readAt? m.data 89 == some (13, 1) && (m.userString 1).toOption == some "AB"

private theorem read_cutHeaps : ∃ m, read cutHeaps = .ok m ∧ hasCutHeaps m :=
  exists_of_toOption_any (by decide +kernel)

/-- The whole entry is not inside the data, and still a text is returned: that of the part that is. -/
theorem userString_shortened :
    ∃ m heap, read cutHeaps = .ok m ∧ m.stream? "#us" = some heap ∧ m.HasEntry heap 1 13 1 ∧
      m.data.size < heap.offset + 1 + 1 + 13 ∧ m.userStringAt 1 = .ok "AB" := by
  obtain ⟨m, hread, hheaps⟩ := read_cutHeaps
  simp only [hasCutHeaps, Bool.and_eq_true, beq_iff_eq] at hheaps
  obtain ⟨⟨⟨⟨hsize, hheap⟩, -⟩, hlength⟩, htext⟩ := hheaps
  exact ⟨m, _, hread, hheap, ⟨hlength, by decide⟩, by rw [hsize]; decide, eq_ok_of_toOption htext⟩

/-! ### Names, signatures and identifiers -/

/-- Bytes that stand at a reference into a heap or behind it, inside the declared heap and inside the data. -/
def InHeap (m : Metadata) (name : String) (offset : Nat) (bs : Bytes) : Prop :=
  ∃ heap start, m.stream? name = some heap ∧ heap.offset + offset ≤ start ∧
    start + bs.length ≤ heap.offset + heap.size ∧ m.data.Holds start bs

private theorem inHeap_slice {name : String} (hheap : m.stream? name = some heap) (start count : Nat)
    (hstart : heap.offset + offset ≤ start) (hcount : start + count ≤ heap.offset + heap.size) :
    m.data.slice start count = [] ∨ m.InHeap name offset (m.data.slice start count) := by
  have hlength := Buffer.length_slice m.data start count
  by_cases hinside : start ≤ m.data.size
  · exact .inr ⟨heap, start, hheap, hstart, by omega, Buffer.holds_slice hinside count⟩
  · exact .inl (List.eq_nil_of_length_eq_zero (by omega))

private theorem InHeap.of_isPrefix {name : String} {bs front : Bytes} (h : m.InHeap name offset bs)
    (hfront : front <+: bs) : m.InHeap name offset front := by
  obtain ⟨heap, start, hheap, hstart, hinside, hholds⟩ := h
  have hle := hfront.length_le
  exact ⟨heap, start, hheap, hstart, by omega, hholds.of_isPrefix hfront⟩

theorem string_inHeap (m : Metadata) (offset : Nat) :
    ∃ name, m.string offset = String.ofList (Utf8.decode name) ∧ (name = [] ∨ m.InHeap "#strings" offset name) := by
  rw [string]
  split
  · exact ⟨[], by rw [Utf8.decode], .inl rfl⟩
  next heap hheap =>
  split
  · exact ⟨[], by rw [Utf8.decode], .inl rfl⟩
  next hoffset =>
  refine ⟨_, rfl, ?_⟩
  obtain hnil | hslice := inHeap_slice hheap (heap.offset + offset) (min (heap.size - offset) maxNameLength)
    (Nat.le_refl _) (by omega)
  · exact .inl (by rw [hnil, List.takeWhile_nil])
  · exact .inr (hslice.of_isPrefix (List.takeWhile_prefix _))

theorem blob_inHeap (m : Metadata) (offset : Nat) :
    m.blob offset = [] ∨ m.InHeap "#blob" offset (m.blob offset) := by
  rw [blob]
  split
  · exact .inl rfl
  next heap hheap =>
  split
  · exact .inl rfl
  split
  · exact .inl rfl
  next length size hlength =>
  rw [entryLength?_eq_some_iff] at hlength
  exact inHeap_slice hheap _ _ (by omega) (by omega)

/-- The heap is declared so large that it contains the identifier. -/
def DeclaresGuid (m : Metadata) (heap : Stream) (index : Nat) : Prop :=
  m.stream? "#guid" = some heap ∧ 1 ≤ index ∧ 16 * index ≤ heap.size

private theorem guid_of_declared {index : Nat} (h : m.DeclaresGuid heap index) :
    m.guid index = match Guid.ofBytes? (m.data.slice (heap.offset + 16 * (index - 1)) 16) with
      | some g => .ok (some g)
      | none => .error .truncatedGuid := by
  obtain ⟨hheap, hpos, hsize⟩ := h
  rw [guid, hheap, Nat.mul_comm 16 (index - 1)]
  exact if_neg (by omega)

private theorem guid_of_not_declared {index : Nat} (h : ∀ heap, ¬m.DeclaresGuid heap index) :
    m.guid index = .ok none := by
  rw [guid]
  split
  · rfl
  next heap hheap =>
  refine if_pos ?_
  by_contra hdeclared
  exact h heap ⟨hheap, by omega, by omega⟩

/-- An identifier is found if the heap contains it, and the data too. -/
theorem guid_eq_some_iff {index : Nat} {g : Guid} : m.guid index = .ok (some g) ↔
    ∃ heap, m.DeclaresGuid heap index ∧ m.data.Holds (heap.offset + 16 * (index - 1)) g.toBytes := by
  constructor
  · intro h
    by_cases hdeclared : ∃ heap, m.DeclaresGuid heap index
    · obtain ⟨heap, hdeclared⟩ := hdeclared
      rw [guid_of_declared hdeclared] at h
      split at h
      · next g' hg' =>
        cases h
        rw [Guid.ofBytes?_eq_some_iff] at hg'
        have hlength := Buffer.length_slice m.data (heap.offset + 16 * (index - 1)) 16
        rw [hg', Guid.length_toBytes] at hlength
        rw [← hg']
        exact ⟨heap, hdeclared, Buffer.holds_slice (by omega) 16⟩
      · contradiction
    · rw [guid_of_not_declared fun heap hheap => hdeclared ⟨heap, hheap⟩] at h
      cases h
  · rintro ⟨heap, hdeclared, hholds⟩
    have hslice := Buffer.slice_of_holds hholds
    rw [Guid.length_toBytes] at hslice
    rw [guid_of_declared hdeclared, hslice, Guid.ofBytes?_toBytes]

theorem guid_eq_error_iff {index : Nat} {e : LookupError} : m.guid index = .error e ↔
    e = .truncatedGuid ∧ ∃ heap, m.DeclaresGuid heap index ∧ m.data.size < heap.offset + 16 * index := by
  have hcut {heap : Stream} (h : m.DeclaresGuid heap index) :
      Guid.ofBytes? (m.data.slice (heap.offset + 16 * (index - 1)) 16) = none ↔
        m.data.size < heap.offset + 16 * index := by
    have hpos := h.2.1
    rw [Guid.ofBytes?_eq_none_iff, Buffer.length_slice]
    omega
  constructor
  · intro h
    by_cases hdeclared : ∃ heap, m.DeclaresGuid heap index
    · obtain ⟨heap, hdeclared⟩ := hdeclared
      rw [guid_of_declared hdeclared] at h
      split at h
      · contradiction
      · next hnone =>
        cases h
        exact ⟨rfl, heap, hdeclared, (hcut hdeclared).1 hnone⟩
    · rw [guid_of_not_declared fun heap hheap => hdeclared ⟨heap, hheap⟩] at h
      contradiction
  · rintro ⟨rfl, heap, hdeclared, hsize⟩
    rw [guid_of_declared hdeclared, (hcut hdeclared).2 hsize]

/-- References that lead nowhere.  The bytes of a name or a signature are found inside the heap and inside the data, or
there are none.  An identifier is found, or there is none, unless the declared heap contains it and the data does not:
this is an error. -/
theorem references_degrade (m : Metadata) :
    (∀ offset : Nat, ∃ name, m.stringAt offset = String.ofList (Utf8.decode name) ∧
      (name = [] ∨ m.InHeap "#strings" offset name)) ∧
    (∀ offset : Nat, ∃ signature, m.blobAt offset = .ok signature ∧
      (signature = [] ∨ m.InHeap "#blob" offset signature)) ∧
    ∀ index : Nat,
      (∀ g, m.guidAt index = .ok (some g) ↔
        ∃ heap, m.DeclaresGuid heap index ∧ m.data.Holds (heap.offset + 16 * (index - 1)) g.toBytes) ∧
      ∀ e, m.guidAt index = .error e ↔
        e = .truncatedGuid ∧ ∃ heap, m.DeclaresGuid heap index ∧ m.data.size < heap.offset + 16 * index :=
  ⟨string_inHeap m, fun offset => ⟨m.blob offset, rfl, blob_inHeap m offset⟩, fun _ =>
    ⟨fun _ => guid_eq_some_iff, fun _ => guid_eq_error_iff⟩⟩

/-- The declared heap contains the first identifier, and asking for it is an error. -/
theorem guid_cut_off :
    ∃ m heap, read cutHeaps = .ok m ∧ m.DeclaresGuid heap 1 ∧ m.guidAt 1 = .error .truncatedGuid := by
  obtain ⟨m, hread, hheaps⟩ := read_cutHeaps
  simp only [hasCutHeaps, Bool.and_eq_true, beq_iff_eq] at hheaps
  obtain ⟨⟨⟨⟨hsize, -⟩, hheap⟩, -⟩, -⟩ := hheaps
  have hdeclared : m.DeclaresGuid ⟨88, 16⟩ 1 := ⟨hheap, by decide, by decide⟩
  exact ⟨m, _, hread, hdeclared, guid_eq_error_iff.2 ⟨rfl, _, hdeclared, by rw [hsize]; decide⟩⟩

end CilProbe.Metadata
