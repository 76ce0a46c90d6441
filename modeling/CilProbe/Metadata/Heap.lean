import CilProbe.Compressed
import CilProbe.Guid
import CilProbe.Metadata.Basic
import CilProbe.Metadata.Token
import CilProbe.Text.Utf16

/-!
# Heaps

Names, literal strings, signatures and identifiers stand in heaps outside the tables. A heap may be missing, and its
declared size may exceed the data. A bad reference to a name or a signature gives an empty one; a bad reference to a
literal string is an error.
-/

namespace CilProbe.Metadata

/-- The length in bytes beyond which names are cut. -/
def maxNameLength : Nat := 1024

def stream? (m : Metadata) (name : String) : Option Stream := m.streams.lookup name

/-- The name at an offset, up to a zero byte. -/
def string (m : Metadata) (offset : Nat) : String :=
  match m.stream? "#strings" with
  | none => ""
  | some heap =>
    if heap.size ≤ offset then ""
    else Utf8.decodeToZero (m.data.slice (heap.offset + offset) (min (heap.size - offset) maxNameLength))

/-- At most `count` bytes of a heap. -/
def heapSlice (m : Metadata) (heap : Stream) (offset count : Nat) : Bytes :=
  m.data.slice (heap.offset + offset) (min count (heap.size - offset))

/-- The length of an entry and the number of bytes in which it is written. -/
def entryLength? (m : Metadata) (heap : Stream) (offset : Nat) : Option (Nat × Nat) :=
  Compressed.read? (m.heapSlice heap offset 4)

/-- The literal string at an offset. The last byte of an entry of odd length is a flag. -/
def userString (m : Metadata) (offset : Nat) : Except LookupError String :=
  match m.stream? "#us" with
  | none => .error (.noStream "#us")
  | some heap =>
    if offset = 0 ∨ heap.size ≤ offset then .error (.stringOutside offset)
    else
      match m.entryLength? heap offset with
      | none => .error (.malformedString offset)
      | some (length, size) =>
        if heap.size < offset + size + length then .error (.malformedString offset)
        else .ok (String.ofList (Utf16.decode (m.heapSlice heap (offset + size) (length - length % 2))))

/-- The literal string that a token names. -/
def userStringOf (m : Metadata) (token : Int) : Except LookupError String :=
  if Token.isString token then m.userString (Token.rid token) else .error (.notStringToken token)

/-- The signature at an offset. -/
def blob (m : Metadata) (offset : Nat) : Bytes :=
  match m.stream? "#blob" with
  | none => []
  | some heap =>
    if heap.size ≤ offset then []
    else
      match m.entryLength? heap offset with
      | none => []
      | some (length, size) => m.heapSlice heap (offset + size) length

/-- The identifier with a number, counted from one; none if the heap does not hold it. -/
def guid (m : Metadata) (index : Nat) : Except LookupError (Option Guid) :=
  match m.stream? "#guid" with
  | none => .ok none
  | some heap =>
    if index = 0 ∨ heap.size < index * 16 then .ok none
    else
      match Guid.ofBytes? (m.data.slice (heap.offset + (index - 1) * 16) 16) with
      | some g => .ok (some g)
      | none => .error .truncatedGuid

end CilProbe.Metadata
