import CilProbe.Bytes
import CilProbe.Text.Utf8

/-!
# UTF-16

Little-endian code units. Decoding never fails: a surrogate without its partner becomes one replacement character, and
so do the bytes at the end that do not complete a character.

* What is written reads back: `decode_encode`.
-/

namespace CilProbe.Utf16

/-- The code unit in two bytes. -/
private def unit (low high : UInt8) : Nat := low.toNat + 256 * high.toNat

def decode : Bytes → List Char
  | [] => []
  | [_] => [Utf8.replacement]
  | a :: b :: rest =>
    let first := unit a b
    if first < 0xD800 ∨ 0xE000 ≤ first then Char.ofNat first :: decode rest
    else if 0xDC00 ≤ first then Utf8.replacement :: decode rest
    else
      match rest with
      | c :: d :: rest' =>
        let second := unit c d
        if 0xDC00 ≤ second ∧ second < 0xE000 then
          Char.ofNat (0x10000 + (first - 0xD800) * 0x400 + (second - 0xDC00)) :: decode rest'
        else Utf8.replacement :: decode (c :: d :: rest')
      | _ => [Utf8.replacement]

/-- The code units of a character, as bytes. -/
def encodeChar (c : Char) : Bytes :=
  if c.toNat < 0x10000 then Bytes.toLittleEndian 2 c.toNat
  else
    let n := c.toNat - 0x10000
    Bytes.toLittleEndian 2 (0xD800 + n / 0x400) ++ Bytes.toLittleEndian 2 (0xDC00 + n % 0x400)

def encode (cs : List Char) : Bytes := cs.flatMap encodeChar

/-! ### Text that was written -/

private theorem toLittleEndian_two (n : Nat) :
    Bytes.toLittleEndian 2 n = [UInt8.ofNat (n % 256), UInt8.ofNat (n / 256 % 256)] := rfl

private theorem unit_toLittleEndian {n : Nat} (h : n < 0x10000) :
    unit (UInt8.ofNat (n % 256)) (UInt8.ofNat (n / 256 % 256)) = n := by
  have hlow : n % 256 % 2 ^ 8 = n % 256 := Nat.mod_eq_of_lt (by omega)
  have hhigh : n / 256 % 256 % 2 ^ 8 = n / 256 := by omega
  rw [unit, UInt8.toNat_ofNat', UInt8.toNat_ofNat', hlow, hhigh]
  omega

theorem decode_encodeChar_append (c : Char) (rest : Bytes) : decode (encodeChar c ++ rest) = c :: decode rest := by
  have hscalar : c.toNat < 0xD800 ∨ 0xDFFF < c.toNat ∧ c.toNat < 0x110000 := c.valid
  have hc : Char.ofNat c.toNat = c := Char.ofNat_toNat c
  rw [encodeChar]
  generalize c.toNat = n at hscalar hc
  subst hc
  split
  · have hunit : unit (UInt8.ofNat (n % 256)) (UInt8.ofNat (n / 256 % 256)) = n := unit_toLittleEndian (by omega)
    rw [toLittleEndian_two, List.cons_append, List.cons_append, List.nil_append, decode.eq_def]
    simp only [hunit]
    rw [if_pos (by omega)]
  · -- two surrogates, of which the first has the upper ten bits
    have hfirst := unit_toLittleEndian (n := 0xD800 + (n - 0x10000) / 0x400) (by omega)
    have hsecond := unit_toLittleEndian (n := 0xDC00 + (n - 0x10000) % 0x400) (by omega)
    have hn : 0x10000 + (0xD800 + (n - 0x10000) / 0x400 - 0xD800) * 0x400 + (0xDC00 + (n - 0x10000) % 0x400 - 0xDC00) =
        n := by omega
    simp only [toLittleEndian_two, List.cons_append, List.nil_append]
    rw [decode.eq_def]
    simp only [hfirst, hsecond]
    rw [if_neg (by omega), if_neg (by omega), if_pos (by omega), hn]

theorem decode_encode (cs : List Char) : decode (encode cs) = cs := by
  induction cs with
  | nil => rfl
  | cons c cs ih =>
    rw [encode, List.flatMap_cons, decode_encodeChar_append]
    exact congrArg (c :: ·) ih

/-- A text takes an even number of bytes. -/
theorem length_encode_mod_two (cs : List Char) : (encode cs).length % 2 = 0 := by
  induction cs with
  | nil => rfl
  | cons c cs ih =>
    have hchar : (encodeChar c).length % 2 = 0 := by
      rw [encodeChar]
      split
      · rw [Bytes.length_toLittleEndian]
      · rw [List.length_append, Bytes.length_toLittleEndian, Bytes.length_toLittleEndian]
    have hrest : (cs.flatMap encodeChar).length % 2 = 0 := ih
    rw [encode, List.flatMap_cons, List.length_append]
    omega

end CilProbe.Utf16
