import CilProbe.Metadata.Heap

/-!
# Queries with any integer

What is stored in the metadata refers to heaps by natural numbers. Whoever asks may give any integer. One below zero
leads to the bytes in front of the heap for a name or an identifier, and counts from the end of the heap for a literal
string or a signature. A place in front of all bytes counts from their end.

* For natural numbers nothing changes: `stringAt_natCast` and the lemmas after it.
-/

namespace CilProbe.Metadata

/-- The name at an offset. -/
def stringAt (m : Metadata) : Int → String
  | .ofNat offset => m.string offset
  | .negSucc n =>
    match m.stream? "#strings" with
    | none => ""
    | some heap =>
      let data := m.data.toList
      let stop := heap.offset + heap.size
      let start : Int := heap.offset + .negSucc n
      let name := (Position.between data start stop).takeWhile (· != 0)
      let first := Position.clamp data.length start
      let last := if first + name.length < min stop data.length then first + name.length else stop
      String.ofList (Utf8.decode (Position.between data start (min last (start + maxNameLength))))

/-- The bytes of a heap, as far as the data holds them. -/
def heapBytes (m : Metadata) (heap : Stream) : Bytes := m.data.slice heap.offset heap.size

/-- The literal string at an offset. -/
def userStringAt (m : Metadata) : Int → Except LookupError String
  | .ofNat offset => m.userString offset
  | .negSucc n =>
    match m.stream? "#us" with
    | none => .error (.noStream "#us")
    | some heap =>
      let bytes := m.heapBytes heap
      match Compressed.readFrom? bytes (.negSucc n) with
      | none => .error .beforeHeap
      | some none => .error (.malformedString (.negSucc n))
      | some (some (length, size)) =>
        let start : Int := .negSucc n + size
        if heap.size < start + length then .error (.malformedString (.negSucc n))
        else
          .ok (String.ofList (Utf16.decode (Position.between bytes start (start + (length - length % 2 : Nat)))))

/-- The signature at an offset. -/
def blobAt (m : Metadata) : Int → Except LookupError Bytes
  | .ofNat offset => .ok (m.blob offset)
  | .negSucc n =>
    match m.stream? "#blob" with
    | none => .ok []
    | some heap =>
      let bytes := m.heapBytes heap
      match Compressed.readFrom? bytes (.negSucc n) with
      | none => .error .beforeHeap
      | some none => .ok []
      | some (some (length, size)) =>
        let start : Int := .negSucc n + size
        .ok (Position.between bytes start (start + length))

/-- The identifier with a number. -/
def guidAt (m : Metadata) : Int → Except LookupError (Option Guid)
  | .ofNat index => m.guid index
  | .negSucc n =>
    match m.stream? "#guid" with
    | none => .ok none
    | some heap =>
      let start : Int := heap.offset + (.negSucc n - 1) * 16
      match Guid.ofBytes? (Position.between m.data.toList start (start + 16)) with
      | some g => .ok (some g)
      | none => .error .truncatedGuid

/-- What a value refers to by its tag, which is in its lowest bits. -/
def decodeIndexAt (kind : CodedIndex) (value : Int) : Except LookupError (Table × Int) :=
  let tags := 2 ^ kind.bits
  (decodeIndex kind (value % tags).toNat).map fun (table, _) => (table, value / tags)

@[simp] theorem stringAt_natCast (m : Metadata) (offset : Nat) : m.stringAt offset = m.string offset := rfl

@[simp] theorem userStringAt_natCast (m : Metadata) (offset : Nat) : m.userStringAt offset = m.userString offset := rfl

@[simp] theorem blobAt_natCast (m : Metadata) (offset : Nat) : m.blobAt offset = .ok (m.blob offset) := rfl

@[simp] theorem guidAt_natCast (m : Metadata) (index : Nat) : m.guidAt index = m.guid index := rfl

end CilProbe.Metadata
