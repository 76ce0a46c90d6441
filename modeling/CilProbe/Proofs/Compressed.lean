import CilProbe.Compressed

/-!
# Where compressed integers end

The first byte of a compressed integer announces its form, and nothing is read if the bytes end before the form does
(`read?_eq_none_iff`).  No form is the beginning of another, so a number is read from exactly its own bytes, wherever
they stand (`read_exactly`).
-/

namespace CilProbe.Compressed

/-! ### Announced forms -/

namespace Form

variable {b : UInt8}

/-- The leading bits of the byte are the mark; its other bits belong to the number. -/
def Announced (form : Form) (first : UInt8) : Prop := first.toNat / 2 ^ (form.bits % 8) = form.mark

theorem announced_short_iff : short.Announced b ↔ b.toNat < 0x80 := by
  change b.toNat / 128 = 0 ↔ _
  omega

theorem announced_medium_iff : medium.Announced b ↔ 0x80 ≤ b.toNat ∧ b.toNat < 0xC0 := by
  change b.toNat / 64 = 2 ↔ _
  omega

theorem announced_long_iff : long.Announced b ↔ 0xC0 ≤ b.toNat ∧ b.toNat < 0xE0 := by
  change b.toNat / 32 = 6 ↔ _
  omega

/-- A byte announces a form that is longer than what is there. -/
theorem exists_announced_iff {length : Nat} : (∃ form : Form, form.Announced b ∧ length < form.size) ↔
    b.toNat < 0x80 ∧ length < 1 ∨ (0x80 ≤ b.toNat ∧ b.toNat < 0xC0) ∧ length < 2 ∨
      (0xC0 ≤ b.toNat ∧ b.toNat < 0xE0) ∧ length < 4 := by
  rw [← announced_short_iff, ← announced_medium_iff, ← announced_long_iff]
  constructor
  · rintro ⟨form, h⟩
    cases form with
    | short => exact .inl h
    | medium => exact .inr (.inl h)
    | long => exact .inr (.inr h)
  · rintro (h | h | h)
    · exact ⟨_, h⟩
    · exact ⟨_, h⟩
    · exact ⟨_, h⟩

end Form

/-! ### What is not read -/

variable {bs : Bytes} {n size : Nat}

/-- Nothing is read if there are no bytes, if the first one announces no form, or if its form is cut off. -/
theorem read?_eq_none_iff : read? bs = none ↔
    bs = [] ∨ ∃ b, bs.head? = some b ∧
      (0xE0 ≤ b.toNat ∨ ∃ form : Form, form.Announced b ∧ bs.length < form.size) := by
  cases bs with
  | nil => simp [read?]
  | cons b bs =>
    simp only [List.head?_cons, Option.some.injEq, exists_eq_left', Form.exists_announced_iff, List.length_cons,
      reduceCtorEq, false_or]
    simp only [read?]
    split
    · simp only [reduceCtorEq, false_iff]
      omega
    split
    · cases bs with
      | nil =>
        simp only [true_iff, List.length_nil]
        omega
      | cons c bs =>
        simp only [reduceCtorEq, false_iff, List.length_cons]
        omega
    split
    · rcases bs with _ | ⟨c, _ | ⟨d, _ | ⟨e, bs⟩⟩⟩
      · simp only [true_iff, List.length_nil]
        omega
      · simp only [true_iff, List.length_cons, List.length_nil]
        omega
      · simp only [true_iff, List.length_cons, List.length_nil]
        omega
      · simp only [reduceCtorEq, false_iff, List.length_cons]
        omega
    · simp only [true_iff]
      omega

/-- Less than all bytes of a number are not read at all. -/
theorem read?_take_of_lt (h : read? bs = some (n, size)) {count : Nat} (hcount : count < size) :
    read? (bs.take count) = none := by
  rw [Option.eq_none_iff_forall_ne_some]
  rintro ⟨n', size'⟩ h'
  obtain ⟨-, hle⟩ := length_of_read? h'
  have hread := read?_append h' (bs.drop count)
  rw [List.take_append_drop, h] at hread
  cases hread
  rw [List.length_take] at hle
  omega

/-- In place of any byte of a number another one can stand, and then another number or none is read. -/
theorem exists_read?_ne (h : read? bs = some (n, size)) {count : Nat} (hcount : count < size) :
    ∃ bytes : Bytes, bytes.length = size ∧ bytes.take count = bs.take count ∧
      ∀ rest, read? (bytes ++ rest) ≠ some (n, size) := by
  obtain ⟨form, rfl, hwrites⟩ := read?_eq_some_iff.1 h
  have htake : bs.take count = (bs.take form.size).take count := by
    rw [List.take_take, Nat.min_eq_left (Nat.le_of_lt hcount)]
  rw [htake]
  generalize bs.take form.size = own at hwrites
  have hlt : count < own.length := by rwa [hwrites.length]
  have hlength : (own.set count (own[count] + 1)).length = form.size := by rw [List.length_set, hwrites.length]
  refine ⟨own.set count (own[count] + 1), hlength, List.take_set_of_le (Nat.le_refl count), fun rest hread => ?_⟩
  obtain ⟨form', hsize, hwrites'⟩ := read?_eq_some_iff.1 hread
  cases Form.eq_of_size_eq hsize
  rw [List.take_left' hlength] at hwrites'
  have hsame : (own.set count (own[count] + 1))[count]? = own[count]? := by rw [hwrites'.unique hwrites]
  rw [List.getElem?_set_self hlt, List.getElem?_eq_getElem hlt, Option.some.injEq] at hsame
  simp at hsame

/-- A number is written in the shortest form that has bits enough for it. -/
theorem length_encode_le_size {form : Form} (h : n < 2 ^ form.bits) : (encode n).length ≤ form.size := by
  rw [length_encode]
  cases form with
  | short =>
    simp only [Form.bits] at h
    rw [if_pos h]
    exact Nat.le_refl 1
  | medium =>
    simp only [Form.bits] at h
    rw [if_pos h, Form.size]
    split <;> decide
  | long =>
    rw [Form.size]
    split
    · decide
    · split <;> decide

/-! ### Numbers at an offset -/

theorem readFrom?_natCast (data : Bytes) (offset : Nat) :
    readFrom? data offset = some (read? (data.drop offset)) := rfl

theorem readFrom?_length (front bs : Bytes) : readFrom? (front ++ bs) front.length = some (read? bs) := by
  rw [readFrom?_natCast, List.drop_left]

/-- Behind the end there is no first byte, and otherwise the form that it announces must not be cut off. -/
theorem read?_drop_eq_none_iff (data : Bytes) (offset : Nat) : read? (data.drop offset) = none ↔
    data.length ≤ offset ∨ ∃ b, data[offset]? = some b ∧
      (0xE0 ≤ b.toNat ∨ ∃ form : Form, form.Announced b ∧ data.length < offset + form.size) := by
  rw [read?_eq_none_iff, List.drop_eq_nil_iff, List.head?_drop, List.length_drop]
  refine or_congr_right (exists_congr fun b => and_congr_right fun hb => or_congr_right (exists_congr fun form =>
    and_congr_right fun _ => ?_))
  obtain ⟨hlt, -⟩ := List.getElem?_eq_some_iff.1 hb
  omega

/-- A number that is written in the shortest form is read, wherever it stands.  At any offset either nothing is read or
a number in one of the forms, of which all bytes are there: they determine the number, and less of them do not.  Nothing
is read only where there is no such form. -/
theorem read_exactly :
    (∀ n < 2 ^ 29,
      (∃ form : Form, form.Writes n (encode n)) ∧
      (∀ form : Form, n < 2 ^ form.bits → (encode n).length ≤ form.size) ∧
      ∀ front rest : Bytes,
        readFrom? (front ++ encode n ++ rest) front.length = some (some (n, (encode n).length))) ∧
    ∀ (data : Bytes) (offset : Nat), ∃ result, readFrom? data offset = some result ∧
      (∀ n size, result = some (n, size) →
        (size = 1 ∧ n < 2 ^ 7 ∨ size = 2 ∧ n < 2 ^ 14 ∨ size = 4 ∧ n < 2 ^ 29) ∧
        offset + size ≤ data.length ∧
        (∃ form : Form, form.size = size ∧ form.Writes n ((data.drop offset).take size)) ∧
        (∀ front rest : Bytes,
          readFrom? (front ++ ((data.drop offset).take size ++ rest)) front.length = some (some (n, size))) ∧
        ∀ count < size, readFrom? (data.take (offset + count)) offset = some none ∧
          ∃ bytes : Bytes, bytes.length = size ∧ bytes.take count = (data.drop offset).take count ∧
            ∀ front rest : Bytes, readFrom? (front ++ (bytes ++ rest)) front.length ≠ some (some (n, size))) ∧
      (result = none ↔ data.length ≤ offset ∨ ∃ b, data[offset]? = some b ∧
        (0xE0 ≤ b.toNat ∨ ∃ form : Form, form.Announced b ∧ data.length < offset + form.size)) := by
  refine ⟨fun n hn => ⟨exists_writes_encode hn, fun _ => length_encode_le_size, fun front rest => ?_⟩,
    fun data offset => ?_⟩
  · rw [List.append_assoc, readFrom?_length, read?_encode hn]
  refine ⟨_, readFrom?_natCast data offset, fun n size hread => ?_, read?_drop_eq_none_iff data offset⟩
  obtain ⟨form, rfl, hwrites⟩ := read?_eq_some_iff.1 hread
  have hinside : offset + form.size ≤ data.length := by
    obtain ⟨hpos, hle⟩ := length_of_read? hread
    rw [List.length_drop] at hle
    omega
  refine
    ⟨Form.size_cases hwrites.fits, hinside, ⟨form, rfl, hwrites⟩, fun front rest => ?_, fun count hcount => ⟨?_, ?_⟩⟩
  · rw [readFrom?_length, read?_of_writes hwrites]
  · rw [readFrom?_natCast, ← List.take_drop, read?_take_of_lt hread hcount]
  · obtain ⟨bytes, hlength, htake, hne⟩ := exists_read?_ne hread hcount
    refine ⟨bytes, hlength, htake, fun front rest hsame => hne rest ?_⟩
    rwa [readFrom?_length, Option.some.injEq] at hsame

/-- The first number of four bytes, between others, and the same bytes with the last one missing. -/
theorem read_exactly_long :
    readFrom? ([7, 7] ++ encode 0x4000 ++ [9]) 2 = some (some (0x4000, 4)) ∧
      readFrom? ([7, 7, 0xC0, 0, 0x40, 0, 9].take (2 + 3)) 2 = some none := by
  obtain ⟨hwritten, hread⟩ := read_exactly
  obtain ⟨result, hresult, hsome, -⟩ := hread [7, 7, 0xC0, 0, 0x40, 0, 9] 2
  have hvalue : result = some (0x4000, 4) := by
    rw [← Option.some.injEq, ← hresult]
    decide
  obtain ⟨-, -, -, -, hless⟩ := hsome 0x4000 4 hvalue
  exact ⟨(hwritten 0x4000 (by decide)).2.2 [7, 7] [9], (hless 3 (by decide)).1⟩

end CilProbe.Compressed
