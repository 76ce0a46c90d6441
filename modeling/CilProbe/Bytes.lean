import CilProbe.Power

/-!
# Bytes

A byte string is a list where it is read from the front (method code, signatures) and a buffer where it is
addressed by offset (images, metadata). Fields of several bytes are little-endian.

* A field of fixed width reads back: `ofLittleEndian_toLittleEndian`, `toLittleEndian_ofLittleEndian`.
* Cutting off a prefix loses nothing: `append_of_split?`.
-/

namespace CilProbe

/-- Bytes that are read from the front. -/
abbrev Bytes := List UInt8

/-- Bytes that are addressed by offset. -/
abbrev Buffer := Array UInt8

namespace Bytes

/-- The number with these base-256 digits, least significant first. -/
def ofLittleEndian : Bytes → Nat
  | [] => 0
  | b :: bs => b.toNat + 256 * ofLittleEndian bs

/-- The lowest `width` base-256 digits of a number, least significant first. -/
def toLittleEndian : Nat → Nat → Bytes
  | 0, _ => []
  | width + 1, n => UInt8.ofNat (n % 256) :: toLittleEndian width (n / 256)

/-- The two's complement reading of a number that was stored in `width` bytes. -/
def toSigned (width n : Nat) : Int := (n : Int).bmod (256 ^ width)

/-- Splits after `n` bytes, if there are that many. -/
def split? : Nat → Bytes → Option (Bytes × Bytes)
  | 0, bs => some ([], bs)
  | _ + 1, [] => none
  | n + 1, b :: bs => (split? n bs).map fun (front, rest) => (b :: front, rest)

@[simp] theorem length_toLittleEndian (width n : Nat) : (toLittleEndian width n).length = width := by
  induction width generalizing n with
  | zero => rfl
  | succ width ih => simp [toLittleEndian, ih]

theorem ofLittleEndian_toLittleEndian (width n : Nat) : ofLittleEndian (toLittleEndian width n) = n % 256 ^ width := by
  induction width generalizing n with
  | zero => simp [toLittleEndian, ofLittleEndian, Nat.mod_one]
  | succ width ih =>
    rw [toLittleEndian, ofLittleEndian, ih, Nat.pow_succ, Nat.mul_comm (256 ^ width), Nat.mod_mul]
    simp

theorem ofLittleEndian_lt (bs : Bytes) : ofLittleEndian bs < 256 ^ bs.length := by
  induction bs with
  | nil => simp [ofLittleEndian]
  | cons b bs ih =>
    have hb : b.toNat < 256 := b.toNat_lt
    rw [ofLittleEndian, List.length_cons, Nat.pow_succ]
    omega

theorem toLittleEndian_ofLittleEndian (bs : Bytes) : toLittleEndian bs.length (ofLittleEndian bs) = bs := by
  induction bs with
  | nil => rfl
  | cons b bs ih =>
    have hb : b.toNat < 256 := b.toNat_lt
    have hlow : (b.toNat + 256 * ofLittleEndian bs) % 256 = b.toNat := by omega
    have hhigh : (b.toNat + 256 * ofLittleEndian bs) / 256 = ofLittleEndian bs := by omega
    rw [ofLittleEndian, List.length_cons, toLittleEndian, hlow, hhigh, ih, UInt8.ofNat_toNat]

theorem append_of_split? {n : Nat} {bs front rest : Bytes} (h : split? n bs = some (front, rest)) :
    bs = front ++ rest ∧ front.length = n := by
  induction n generalizing bs front with
  | zero => simp only [split?, Option.some.injEq, Prod.mk.injEq] at h; simp [← h.1, h.2]
  | succ n ih =>
    cases bs with
    | nil => simp [split?] at h
    | cons b bs =>
      simp only [split?, Option.map_eq_some_iff, Prod.exists, Prod.mk.injEq] at h
      obtain ⟨front', rest', h', rfl, rfl⟩ := h
      obtain ⟨rfl, rfl⟩ := ih h'
      simp

theorem split?_append (front rest : Bytes) : split? front.length (front ++ rest) = some (front, rest) := by
  induction front with
  | nil => rfl
  | cons b front ih => simp [split?, ih]

end Bytes

namespace Buffer

/-- At most `count` bytes from `offset` on; fewer where the buffer ends. -/
def slice (data : Buffer) (offset count : Nat) : Bytes := (data.extract offset (offset + count)).toList

/-- The little-endian field of `width` bytes at `offset`, if all of it lies in the buffer. -/
def field? (data : Buffer) (offset width : Nat) : Option Nat :=
  if offset + width ≤ data.size then some (Bytes.ofLittleEndian (data.slice offset width)) else none

theorem slice_eq (data : Buffer) (offset count : Nat) :
    data.slice offset count = (data.toList.drop offset).take count := by
  simp [slice, List.extract_eq_take_drop]

theorem field?_isSome_iff (data : Buffer) (offset width : Nat) :
    (data.field? offset width).isSome ↔ offset + width ≤ data.size := by
  simp only [field?]
  split <;> simp [*]

end Buffer

end CilProbe
