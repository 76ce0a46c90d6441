import CilProbe.Bytes

/-!
# UTF-8

Decoding never fails: each longest prefix of a well-formed sequence that is not completed becomes one replacement
character, and so does each byte that starts no sequence.

* What is written reads back: `decode_encode`, and `decodeToZero_take` for a text that a zero byte ends.
-/

namespace CilProbe.Utf8

/-- What stands for bytes that cannot be decoded. -/
def replacement : Char := '\uFFFD'

/-- What a first byte announces: how many bytes follow, the bounds of the next one, and the leading bits. -/
private def announced (b : Nat) : Option (Nat × Nat × Nat × Nat) :=
  if b < 0x80 then some (0, 0x80, 0xBF, b)
  else if b < 0xC2 then none
  else if b < 0xE0 then some (1, 0x80, 0xBF, b - 0xC0)
  else if b = 0xE0 then some (2, 0xA0, 0xBF, 0)
  else if b = 0xED then some (2, 0x80, 0x9F, 0xD)
  else if b < 0xF0 then some (2, 0x80, 0xBF, b - 0xE0)
  else if b = 0xF0 then some (3, 0x90, 0xBF, 0)
  else if b < 0xF4 then some (3, 0x80, 0xBF, b - 0xF0)
  else if b = 0xF4 then some (3, 0x80, 0x8F, 4)
  else none

/-- Reads `count` continuation bytes, of which the first lies between `low` and `high`, and adds their bits to `bits`.
Stops in front of the first byte that does not continue. -/
private def continued (count low high bits : Nat) (bs : Bytes) : Option Nat × Bytes :=
  match count, bs with
  | 0, bs => (some bits, bs)
  | _ + 1, [] => (none, [])
  | count + 1, b :: rest =>
    if low ≤ b.toNat ∧ b.toNat ≤ high then continued count 0x80 0xBF (bits * 64 + (b.toNat - 0x80)) rest
    else (none, b :: rest)

private theorem length_continued (count low high bits : Nat) (bs : Bytes) :
    (continued count low high bits bs).2.length ≤ bs.length := by
  induction count generalizing low high bits bs with
  | zero => simp [continued]
  | succ count ih =>
    cases bs with
    | nil => simp [continued]
    | cons b rest =>
      simp only [continued]
      split
      · exact Nat.le_succ_of_le (ih ..)
      · exact Nat.le_refl _

def decode : Bytes → List Char
  | [] => []
  | b :: rest =>
    match announced b.toNat with
    | none => replacement :: decode rest
    | some (count, low, high, bits) =>
      let read := continued count low high bits rest
      ((read.1.map Char.ofNat).getD replacement) :: decode read.2
termination_by bs => bs.length
decreasing_by
  · simp
  · exact Nat.lt_succ_of_le (length_continued ..)

/-- The bytes up to the first zero byte, as text. -/
def decodeToZero (bs : Bytes) : String := String.ofList (decode (bs.takeWhile (· != 0)))

/-! ### Text that was written -/

/-- The bytes of a text. -/
def encode (cs : List Char) : Bytes := cs.flatMap String.utf8EncodeChar

private theorem toNat_ofNat_add {k first : Nat} (h : k + first < 256) :
    (UInt8.ofNat (k + first)).toNat = first + k := by
  rw [UInt8.toNat_ofNat', Nat.mod_eq_of_lt h, Nat.add_comm]

private theorem continued_cons {count low high bits k : Nat} (rest : Bytes) (hlow : low ≤ 0x80 + k % 0x40)
    (hhigh : 0x80 + k % 0x40 ≤ high) :
    continued (count + 1) low high bits (UInt8.ofNat (k % 0x40 + 0x80) :: rest) =
      continued count 0x80 0xBF (bits * 64 + k % 0x40) rest := by
  have hbyte : (UInt8.ofNat (k % 0x40 + 0x80)).toNat = 0x80 + k % 0x40 := toNat_ofNat_add (by omega)
  rw [continued, hbyte, if_pos ⟨hlow, hhigh⟩, Nat.add_sub_cancel_left]

private theorem decode_cons {b : UInt8} {rest rest' : Bytes} {count low high bits n : Nat}
    (hb : announced b.toNat = some (count, low, high, bits))
    (hrest : continued count low high bits rest = (some n, rest')) :
    decode (b :: rest) = Char.ofNat n :: decode rest' := by
  rw [decode]
  simp only [hb, hrest, Option.map_some, Option.getD_some]

/-- The first of two bytes. -/
private theorem announced_two {q : Nat} (hlow : 2 ≤ q) (hhigh : q < 0x20) :
    announced (0xC0 + q) = some (1, 0x80, 0xBF, q) := by
  rw [announced, if_neg (by omega), if_neg (by omega), if_pos (by omega), Nat.add_sub_cancel_left]

/-- The first of three bytes. It bounds the second one, so that no character that needs less bytes and no surrogate is
read. -/
private theorem exists_announced_three (q second : Nat) (hq : q < 0x10) (hsecond : second < 0x40)
    (hlow : q = 0 → 0x20 ≤ second) (hscalar : q = 0xD → second < 0x20) :
    ∃ low high, announced (0xE0 + q) = some (2, low, high, q) ∧ low ≤ 0x80 + second ∧ 0x80 + second ≤ high := by
  rw [announced, if_neg (by omega), if_neg (by omega), if_neg (by omega)]
  split
  · obtain rfl : q = 0 := by omega
    exact ⟨_, _, rfl, by omega, by omega⟩
  split
  · obtain rfl : q = 0xD := by omega
    exact ⟨_, _, rfl, by omega, by omega⟩
  rw [if_pos (by omega), Nat.add_sub_cancel_left]
  exact ⟨_, _, rfl, by omega, by omega⟩

/-- The first of four bytes. It bounds the second one, so that no character that needs less bytes and no number beyond
the last character is read. -/
private theorem exists_announced_four (q second : Nat) (hq : q ≤ 4) (hsecond : second < 0x40)
    (hlow : q = 0 → 0x10 ≤ second) (hlast : q = 4 → second < 0x10) :
    ∃ low high, announced (0xF0 + q) = some (3, low, high, q) ∧ low ≤ 0x80 + second ∧ 0x80 + second ≤ high := by
  rw [announced, if_neg (by omega), if_neg (by omega), if_neg (by omega), if_neg (by omega), if_neg (by omega),
    if_neg (by omega)]
  split
  · obtain rfl : q = 0 := by omega
    exact ⟨_, _, rfl, by omega, by omega⟩
  split
  · rw [Nat.add_sub_cancel_left]
    exact ⟨_, _, rfl, by omega, by omega⟩
  obtain rfl : q = 4 := by omega
  exact ⟨_, _, rfl, by omega, by omega⟩

/-- The character that comes first, by the number of its bytes. -/
theorem decode_utf8EncodeChar_append (c : Char) (rest : Bytes) :
    decode (String.utf8EncodeChar c ++ rest) = c :: decode rest := by
  have hscalar : c.toNat < 0xD800 ∨ 0xDFFF < c.toNat ∧ c.toNat < 0x110000 := c.valid
  have hc : Char.ofNat c.toNat = c := Char.ofNat_toNat c
  rw [String.utf8EncodeChar, show c.val.toNat = c.toNat from rfl]
  generalize c.toNat = n at hscalar hc
  subst hc
  split
  · have hbyte : (UInt8.ofNat n).toNat = n := by rw [UInt8.toNat_ofNat', Nat.mod_eq_of_lt (by omega)]
    have hfirst : announced (UInt8.ofNat n).toNat = some (0, 0x80, 0xBF, n) := by
      rw [hbyte, announced, if_pos (by omega)]
    exact decode_cons hfirst rfl
  split
  · have hq : n / 64 % 0x20 = n / 64 := Nat.mod_eq_of_lt (by omega)
    simp only [List.cons_append, List.nil_append]
    refine decode_cons (by rw [toNat_ofNat_add (by omega), hq]; exact announced_two (by omega) (by omega)) ?_
    rw [continued_cons _ (by omega) (by omega), continued]
    congr 2
    omega
  split
  · have hq : n / 4096 % 0x10 = n / 4096 := Nat.mod_eq_of_lt (by omega)
    obtain ⟨low, high, hfirst, hlow, hhigh⟩ := exists_announced_three (n / 4096) (n / 64 % 0x40)
      (by omega) (by omega) (by omega) (by omega)
    simp only [List.cons_append, List.nil_append]
    refine decode_cons (by rw [toNat_ofNat_add (by omega), hq]; exact hfirst) ?_
    rw [continued_cons _ hlow hhigh, continued_cons _ (by omega) (by omega), continued]
    congr 2
    omega
  · have hq : n / 262144 % 0x08 = n / 262144 := Nat.mod_eq_of_lt (by omega)
    obtain ⟨low, high, hfirst, hlow, hhigh⟩ := exists_announced_four (n / 262144) (n / 4096 % 0x40)
      (by omega) (by omega) (by omega) (by omega)
    simp only [List.cons_append, List.nil_append]
    refine decode_cons (by rw [toNat_ofNat_add (by omega), hq]; exact hfirst) ?_
    rw [continued_cons _ hlow hhigh, continued_cons _ (by omega) (by omega), continued_cons _ (by omega) (by omega),
      continued]
    congr 2
    omega

theorem decode_encode (cs : List Char) : decode (encode cs) = cs := by
  induction cs with
  | nil => rw [encode, List.flatMap_nil, decode]
  | cons c cs ih =>
    rw [encode, List.flatMap_cons, decode_utf8EncodeChar_append]
    exact congrArg (c :: ·) ih

private theorem eq_zero_of_mem {c : Char} (h : 0 ∈ String.utf8EncodeChar c) : c.toNat = 0 := by
  have hbyte : ∃ b ∈ String.utf8EncodeChar c, b.toNat = 0 := ⟨0, h, rfl⟩
  rw [String.utf8EncodeChar, show c.val.toNat = c.toNat from rfl] at hbyte
  repeat' split at hbyte
  all_goals
    simp only [List.mem_cons, exists_eq_or_imp, exists_eq_left, List.not_mem_nil, or_false,
      UInt8.toNat_ofNat'] at hbyte
    omega

/-- Only the character zero has a zero byte. -/
theorem zero_notMem_encode {cs : List Char} (h : '\x00' ∉ cs) : 0 ∉ encode cs := by
  rw [encode, List.mem_flatMap]
  rintro ⟨c, hc, hzero⟩
  obtain rfl : c = '\x00' := Char.toNat_inj.1 (eq_zero_of_mem hzero)
  exact h hc

private theorem takeWhile_ne_zero_take {bs : Bytes} (h : 0 ∉ bs) (rest : Bytes) {count : Nat}
    (hcount : bs.length ≤ count) :
    ((bs ++ 0 :: rest).take count).takeWhile (· != 0) = bs := by
  have hkept : ∀ b ∈ bs, (b != 0) = true := fun b hb => bne_iff_ne.2 fun hzero => h (hzero ▸ hb)
  rw [List.take_append, List.take_of_length_le hcount, List.takeWhile_append_of_pos hkept]
  cases count - bs.length with
  | zero => exact List.append_nil bs
  | succ n => exact List.append_nil bs

/-- A text that a zero byte ends is read, also where the bytes are cut behind it. -/
theorem decodeToZero_take {cs : List Char} (h : '\x00' ∉ cs) (rest : Bytes) {count : Nat}
    (hcount : (encode cs).length ≤ count) :
    decodeToZero ((encode cs ++ 0 :: rest).take count) = String.ofList cs := by
  rw [decodeToZero, takeWhile_ne_zero_take (zero_notMem_encode h) rest hcount, decode_encode]

end CilProbe.Utf8
