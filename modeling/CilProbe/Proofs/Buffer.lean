import CilProbe.Bytes

/-!
# What stands at an offset

`Buffer.Holds data offset bs`: the bytes `bs` stand in the buffer from an offset on.  What is put together of parts
holds its parts, each behind the one before (`Buffer.holds_append`), and a field that was written at an offset is read
there (`Buffer.field?_toLittleEndian`).
-/

namespace CilProbe.Buffer

variable {data : Buffer} {offset : Nat}

def Holds (data : Buffer) (offset : Nat) (bs : Bytes) : Prop :=
  ∃ front rest, data.toList = front ++ (bs ++ rest) ∧ front.length = offset

theorem holds_toArray (bs : Bytes) : Holds bs.toArray 0 bs := ⟨[], [], by simp, rfl⟩

theorem Holds.le {bs : Bytes} (h : data.Holds offset bs) : offset + bs.length ≤ data.size := by
  obtain ⟨front, rest, hdata, rfl⟩ := h
  rw [← Array.length_toList, hdata, List.length_append, List.length_append]
  omega

theorem holds_append {as bs : Bytes} :
    data.Holds offset (as ++ bs) ↔ data.Holds offset as ∧ data.Holds (offset + as.length) bs := by
  constructor
  · rintro ⟨front, rest, hdata, rfl⟩
    rw [List.append_assoc] at hdata
    exact ⟨⟨front, bs ++ rest, hdata, rfl⟩, front ++ as, rest, by rw [hdata, List.append_assoc], List.length_append⟩
  · rintro ⟨⟨front, rest, hdata, rfl⟩, front', rest', hdata', hlength⟩
    refine ⟨front, rest', ?_, rfl⟩
    have hfront : front' = front ++ as := by
      have heq := hdata'.symm.trans hdata
      rw [← List.append_assoc front] at heq
      exact (List.append_inj heq (by rw [hlength, List.length_append])).1
    rw [hdata', hfront, List.append_assoc, List.append_assoc]

theorem slice_of_holds {bs : Bytes} (h : data.Holds offset bs) : data.slice offset bs.length = bs := by
  obtain ⟨front, rest, hdata, rfl⟩ := h
  rw [slice_eq, hdata, List.drop_left, List.take_left]

theorem length_slice (data : Buffer) (offset count : Nat) :
    (data.slice offset count).length = min count (data.size - offset) := by
  rw [slice_eq, List.length_take, List.length_drop, Array.length_toList]

theorem slice_min (data : Buffer) (offset count limit : Nat) :
    data.slice offset (min count limit) = (data.slice offset count).take limit := by
  rw [slice_eq, slice_eq, List.take_take, Nat.min_comm]

/-- What stands at an offset begins with what the buffer holds there. -/
theorem exists_slice_of_holds {bs : Bytes} (h : data.Holds offset bs) :
    ∃ rest, ∀ count, data.slice offset count = (bs ++ rest).take count := by
  obtain ⟨front, rest, hdata, rfl⟩ := h
  exact ⟨rest, fun count => by rw [slice_eq, hdata, List.drop_left]⟩

theorem holds_slice (h : offset ≤ data.size) (count : Nat) : data.Holds offset (data.slice offset count) := by
  refine ⟨data.toList.take offset, (data.toList.drop offset).drop count, ?_, ?_⟩
  · rw [slice_eq, List.take_append_drop, List.take_append_drop]
  · rw [List.length_take, Array.length_toList, Nat.min_eq_left h]

theorem Holds.of_isPrefix {bs front : Bytes} (h : data.Holds offset bs) (hfront : front <+: bs) :
    data.Holds offset front := by
  obtain ⟨rest, rfl⟩ := hfront
  exact (holds_append.1 h).1

theorem field?_of_holds {bs : Bytes} (h : data.Holds offset bs) :
    data.field? offset bs.length = some (Bytes.ofLittleEndian bs) := by
  rw [field?, if_pos h.le, slice_of_holds h]

/-- A field that was written is read. -/
theorem field?_toLittleEndian {width n : Nat} (h : data.Holds offset (Bytes.toLittleEndian width n)) :
    data.field? offset width = some (n % 256 ^ width) := by
  have hfield := field?_of_holds h
  rwa [Bytes.length_toLittleEndian, Bytes.ofLittleEndian_toLittleEndian] at hfield

theorem getElem_of_holds {b : UInt8} {bs : Bytes} (h : data.Holds offset (b :: bs)) :
    ∃ hlt : offset < data.size, data[offset] = b := by
  have hle := h.le
  rw [List.length_cons] at hle
  obtain ⟨front, rest, hdata, rfl⟩ := h
  refine ⟨by omega, ?_⟩
  simp only [← Array.getElem_toList, hdata]
  simp

/-- Of equally long parts the one with the index `i` stands behind `i` others. -/
theorem Holds.flatMap_getElem {α : Type} {f : α → Bytes} {xs : List α} {size : Nat}
    (hsize : ∀ x ∈ xs, (f x).length = size) (h : data.Holds offset (xs.flatMap f)) {i : Nat} {x : α}
    (hx : xs[i]? = some x) : data.Holds (offset + i * size) (f x) := by
  induction xs generalizing offset i with
  | nil => contradiction
  | cons y xs ih =>
    rw [List.flatMap_cons, holds_append, hsize y (by simp)] at h
    cases i with
    | zero =>
      cases hx
      rw [Nat.zero_mul, Nat.add_zero]
      exact h.1
    | succ i =>
      have hi := ih (fun x hx => hsize x (by simp [hx])) h.2 hx
      rwa [Nat.succ_mul, Nat.add_comm (i * size), ← Nat.add_assoc]

end CilProbe.Buffer
