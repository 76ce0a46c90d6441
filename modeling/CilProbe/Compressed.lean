import CilProbe.Bytes
import CilProbe.Position

/-!
# Compressed integers

Metadata stores lengths and indexes below 2^29 in one, two or four bytes. The leading bits of the first byte give
the length: `0`, `10` or `110`, and the bytes follow most significant first.

* `read?_eq_some_iff`: what is read is what one of the three forms writes.
* `read?_encode`: what is written reads back, whatever follows it.
* `exists_of_read?`: the bytes that were read determine the value, whatever follows them.
-/

namespace CilProbe.Compressed

/-- The value at the front and the number of bytes it takes. None when the bytes end too early or when the first
byte starts with `111`. -/
def read? : Bytes → Option (Nat × Nat)
  | [] => none
  | b :: bs =>
    if b.toNat < 0x80 then some (b.toNat, 1)
    else if b.toNat < 0xC0 then
      match bs with
      | c :: _ => some ((b.toNat - 0x80) * 0x100 + c.toNat, 2)
      | [] => none
    else if b.toNat < 0xE0 then
      match bs with
      | c :: d :: e :: _ => some ((b.toNat - 0xC0) * 0x1000000 + c.toNat * 0x10000 + d.toNat * 0x100 + e.toNat, 4)
      | _ => none
    else none

/-- The shortest of the three forms that holds the value; meant for values below 2^29. -/
def encode (n : Nat) : Bytes :=
  if n < 0x80 then [UInt8.ofNat n]
  else if n < 0x4000 then [UInt8.ofNat (0x80 + n / 0x100), UInt8.ofNat (n % 0x100)]
  else [UInt8.ofNat (0xC0 + n / 0x1000000), UInt8.ofNat (n / 0x10000 % 0x100), UInt8.ofNat (n / 0x100 % 0x100),
    UInt8.ofNat (n % 0x100)]

/-- The value that starts at an offset of a buffer and the number of bytes it takes. -/
def readAt? (data : Buffer) (offset : Nat) : Option (Nat × Nat) := read? (data.slice offset 4)

/-- The same for an offset that may be below zero and then counts from the end; none if it lies before the bytes. -/
def readFrom? (data : Bytes) (offset : Int) : Option (Option (Nat × Nat)) := (Position.from? data offset).map read?

/-! ### Forms -/

/-- The forms in which a number is written. -/
inductive Form where
  | short
  | medium
  | long

namespace Form

/-- How many bytes are written. -/
def size : Form → Nat
  | short => 1
  | medium => 2
  | long => 4

/-- How many bits are left for the number. -/
def bits : Form → Nat
  | short => 7
  | medium => 14
  | long => 29

/-- What stands in the bits in front of the number. -/
def mark : Form → Nat
  | short => 0
  | medium => 0b10
  | long => 0b110

/-- The bytes are the mark and the number behind it, most significant byte first. -/
structure Writes (form : Form) (n : Nat) (bytes : Bytes) : Prop where
  fits : n < 2 ^ form.bits
  length : bytes.length = form.size
  number : Bytes.ofLittleEndian bytes.reverse = form.mark * 2 ^ form.bits + n

variable {form form' : Form} {n : Nat} {bytes bytes' : Bytes}

theorem size_pos (form : Form) : 0 < form.size := by
  cases form <;> decide

theorem size_cases (h : n < 2 ^ form.bits) :
    form.size = 1 ∧ n < 2 ^ 7 ∨ form.size = 2 ∧ n < 2 ^ 14 ∨ form.size = 4 ∧ n < 2 ^ 29 := by
  cases form with
  | short => exact .inl ⟨rfl, h⟩
  | medium => exact .inr (.inl ⟨rfl, h⟩)
  | long => exact .inr (.inr ⟨rfl, h⟩)

theorem eq_of_size_eq (h : form.size = form'.size) : form = form' := by
  cases form <;> cases form' <;> simp [size] at h ⊢

/-- A form writes a number in one way only. -/
theorem Writes.unique (h : form.Writes n bytes) (h' : form.Writes n bytes') : bytes = bytes' := by
  have hnumber := h.number.trans h'.number.symm
  have hlength : bytes.reverse.length = bytes'.reverse.length := by
    rw [List.length_reverse, List.length_reverse, h.length, h'.length]
  rw [← List.reverse_inj, ← Bytes.toLittleEndian_ofLittleEndian bytes.reverse, hnumber, hlength,
    Bytes.toLittleEndian_ofLittleEndian]

end Form

variable {bs bytes : Bytes} {n size : Nat}

/-! ### Reading -/

private theorem number_two (b c : UInt8) : Bytes.ofLittleEndian [b, c].reverse = b.toNat * 0x100 + c.toNat := by
  simp only [List.reverse_cons, List.reverse_nil, List.nil_append, List.cons_append, Bytes.ofLittleEndian]
  omega

private theorem number_four (b c d e : UInt8) : Bytes.ofLittleEndian [b, c, d, e].reverse =
    b.toNat * 0x1000000 + c.toNat * 0x10000 + d.toNat * 0x100 + e.toNat := by
  simp only [List.reverse_cons, List.reverse_nil, List.nil_append, List.cons_append, Bytes.ofLittleEndian]
  omega

/-- What a form writes is read, whatever follows. -/
theorem read?_of_writes {form : Form} (h : form.Writes n bytes) (rest : Bytes) :
    read? (bytes ++ rest) = some (n, form.size) := by
  obtain ⟨hfits, hlength, hnumber⟩ := h
  cases form with
  | short =>
    obtain ⟨b, rfl⟩ := List.length_eq_one_iff.1 hlength
    simp only [List.reverse_singleton, Bytes.ofLittleEndian, Form.mark, Form.bits] at hfits hnumber
    have hn : b.toNat = n := by omega
    simp only [List.singleton_append, read?]
    rw [if_pos (by omega), hn]
    rfl
  | medium =>
    obtain ⟨b, bytes, rfl⟩ := List.exists_cons_of_length_eq_add_one hlength
    obtain ⟨c, rfl⟩ := List.length_eq_one_iff.1 (Nat.succ.inj hlength)
    have hc := c.toNat_lt
    simp only [number_two, Form.mark, Form.bits, Nat.reducePow, Nat.reduceMul] at hfits hnumber
    have hn : (b.toNat - 0x80) * 0x100 + c.toNat = n := by
      rw [Nat.sub_mul]
      omega
    simp only [List.cons_append, List.nil_append, read?]
    rw [if_neg (by omega), if_pos (by omega), hn]
    rfl
  | long =>
    obtain ⟨b, bytes, rfl⟩ := List.exists_cons_of_length_eq_add_one hlength
    obtain ⟨c, bytes, rfl⟩ := List.exists_cons_of_length_eq_add_one (Nat.succ.inj hlength)
    obtain ⟨d, bytes, rfl⟩ := List.exists_cons_of_length_eq_add_one (Nat.succ.inj (Nat.succ.inj hlength))
    obtain ⟨e, rfl⟩ := List.length_eq_one_iff.1 (Nat.succ.inj (Nat.succ.inj (Nat.succ.inj hlength)))
    have hc := c.toNat_lt
    have hd := d.toNat_lt
    have he := e.toNat_lt
    simp only [number_four, Form.mark, Form.bits, Nat.reducePow, Nat.reduceMul] at hfits hnumber
    have hn : (b.toNat - 0xC0) * 0x1000000 + c.toNat * 0x10000 + d.toNat * 0x100 + e.toNat = n := by
      rw [Nat.sub_mul]
      omega
    simp only [List.cons_append, List.nil_append, read?]
    rw [if_neg (by omega), if_neg (by omega), if_pos (by omega), hn]
    rfl

/-- What is read was written by some form. -/
theorem exists_writes_of_read? (h : read? bs = some (n, size)) :
    ∃ form bytes rest, bs = bytes ++ rest ∧ Form.Writes form n bytes ∧ form.size = size := by
  cases bs with
  | nil => contradiction
  | cons b bs =>
    simp only [read?] at h
    split at h
    · next hb =>
      cases h
      refine ⟨.short, [b], bs, rfl, ⟨hb, rfl, ?_⟩, rfl⟩
      simp [Bytes.ofLittleEndian, Form.mark]
    · split at h
      · split at h
        · next hb hb' c bs =>
          cases h
          have hc := c.toNat_lt
          refine ⟨.medium, [b, c], bs, rfl, ⟨?_, rfl, ?_⟩, rfl⟩
          · simp only [Form.bits]
            omega
          · simp only [number_two, Form.mark, Form.bits]
            omega
        · contradiction
      · split at h
        · split at h
          · next hb hb' hb'' c d e bs =>
            cases h
            have hc := c.toNat_lt
            have hd := d.toNat_lt
            have he := e.toNat_lt
            refine ⟨.long, [b, c, d, e], bs, rfl, ⟨?_, rfl, ?_⟩, rfl⟩
            · simp only [Form.bits]
              omega
            · simp only [number_four, Form.mark, Form.bits]
              omega
          · contradiction
        · contradiction

theorem read?_eq_some_iff :
    read? bs = some (n, size) ↔ ∃ form : Form, form.size = size ∧ form.Writes n (bs.take size) := by
  constructor
  · intro h
    obtain ⟨form, bytes, rest, rfl, hwrites, rfl⟩ := exists_writes_of_read? h
    refine ⟨form, rfl, ?_⟩
    rwa [← hwrites.length, List.take_left]
  · rintro ⟨form, rfl, hwrites⟩
    have hread := read?_of_writes hwrites (bs.drop form.size)
    rwa [List.take_append_drop] at hread

/-- The bytes that were read alone determine what is read. -/
theorem exists_of_read? (h : read? bs = some (n, size)) :
    ∃ front rest, bs = front ++ rest ∧ front.length = size ∧ ∀ rest', read? (front ++ rest') = some (n, size) := by
  obtain ⟨form, bytes, rest, rfl, hwrites, rfl⟩ := exists_writes_of_read? h
  exact ⟨bytes, rest, rfl, hwrites.length, read?_of_writes hwrites⟩

/-- The bytes behind those that were read do not matter. -/
theorem read?_append (h : read? bs = some (n, size)) (rest : Bytes) :
    read? (bs ++ rest) = some (n, size) := by
  obtain ⟨front, rest', rfl, -, hfront⟩ := exists_of_read? h
  rw [List.append_assoc, hfront]

theorem read?_take {count : Nat} (h : read? bs = some (n, size)) (hcount : size ≤ count) :
    read? (bs.take count) = some (n, size) := by
  obtain ⟨front, rest, rfl, rfl, hfront⟩ := exists_of_read? h
  rw [List.take_append, List.take_of_length_le hcount, hfront]

/-- The bytes that were read: one, two or four, all of them present. -/
theorem length_of_read? (h : read? bs = some (n, size)) : 0 < size ∧ size ≤ bs.length := by
  obtain ⟨form, bytes, rest, rfl, hwrites, rfl⟩ := exists_writes_of_read? h
  rw [List.length_append, hwrites.length]
  exact ⟨form.size_pos, Nat.le_add_right ..⟩

/-! ### Writing -/

theorem exists_writes_encode (h : n < 2 ^ 29) : ∃ form : Form, form.Writes n (encode n) := by
  rw [encode]
  split
  · next hn =>
    refine ⟨.short, hn, rfl, ?_⟩
    simp only [List.reverse_singleton, Bytes.ofLittleEndian, UInt8.toNat_ofNat', Form.mark, Form.bits]
    omega
  · split
    · next hn =>
      refine ⟨.medium, hn, rfl, ?_⟩
      simp only [number_two, UInt8.toNat_ofNat', Form.mark, Form.bits, Nat.reducePow, Nat.reduceMul]
      omega
    · refine ⟨.long, h, rfl, ?_⟩
      simp only [number_four, UInt8.toNat_ofNat', Form.mark, Form.bits, Nat.reducePow, Nat.reduceMul]
      omega

theorem read?_encode (h : n < 2 ^ 29) (rest : Bytes) : read? (encode n ++ rest) = some (n, (encode n).length) := by
  obtain ⟨form, hwrites⟩ := exists_writes_encode h
  rw [read?_of_writes hwrites, hwrites.length]

theorem length_encode (n : Nat) : (encode n).length = if n < 2 ^ 7 then 1 else if n < 2 ^ 14 then 2 else 4 := by
  rw [encode]
  split
  · rfl
  · split <;> rfl

theorem length_encode_le (n : Nat) : (encode n).length ≤ 4 := by
  rw [length_encode]
  split
  · decide
  · split <;> decide

end CilProbe.Compressed
