import CilProbe.Bytes
import CilProbe.Text.Hex

/-!
# Globally unique identifiers

An identifier is a number of 128 bits. Stored in sixteen bytes, its first three fields, of four, two and two bytes, are
little-endian and the rest is not.

* Any sixteen bytes are those of one identifier: `ofBytes?_eq_some_iff`, `exists_ofBytes?_eq_some`.
-/

namespace CilProbe

structure Guid where
  value : Nat
  lt : value < 2 ^ 128 := by decide
  deriving DecidableEq, Repr

namespace Guid

def zero : Guid := ⟨0, by decide⟩

/-- The identifier with a number, if the number has at most 128 bits. -/
def ofNat? (n : Nat) : Option Guid := if h : n < 2 ^ 128 then some ⟨n, h⟩ else none

/-- The five groups of digits that make up the text. -/
private def groups : List Nat → List Char → List String
  | [], _ => []
  | width :: widths, digits => String.ofList (digits.take width) :: groups widths (digits.drop width)

def toText (g : Guid) : String := "-".intercalate (groups [8, 4, 4, 4, 12] (Text.hex 32 g.value).toList)

/-- The identifier in sixteen stored bytes. -/
def ofBytes? (bytes : Bytes) : Option Guid :=
  if bytes.length = 16 then
    let bigEndian := (bytes.take 4).reverse ++ ((bytes.drop 4).take 2).reverse ++ ((bytes.drop 6).take 2).reverse ++
      bytes.drop 8
    ofNat? (Bytes.ofLittleEndian bigEndian.reverse)
  else none

/-! ### Identifiers that were stored -/

/-- Sixteen bytes with each of the first three fields reversed. -/
def reverseFields (bytes : Bytes) : Bytes :=
  (bytes.take 4).reverse ++ ((bytes.drop 4).take 2).reverse ++ ((bytes.drop 6).take 2).reverse ++ bytes.drop 8

/-- The sixteen bytes in which an identifier is stored. -/
def toBytes (g : Guid) : Bytes := reverseFields (Bytes.toLittleEndian 16 g.value).reverse

private theorem reverseFields_reverseFields {bytes : Bytes} (h : bytes.length = 16) :
    reverseFields (reverseFields bytes) = bytes := by
  match bytes, h with
  | [_, _, _, _, _, _, _, _, _, _, _, _, _, _, _, _], _ => rfl

private theorem length_reverseFields {bytes : Bytes} (h : bytes.length = 16) : (reverseFields bytes).length = 16 := by
  simp [reverseFields, h]

theorem length_toBytes (g : Guid) : g.toBytes.length = 16 :=
  length_reverseFields (by rw [List.length_reverse, Bytes.length_toLittleEndian])

/-- Any sixteen bytes hold an identifier. -/
theorem exists_ofBytes?_eq_some {bytes : Bytes} (h : bytes.length = 16) :
    ∃ g, ofBytes? bytes = some g ∧ g.toBytes = bytes := by
  have hlength : (reverseFields bytes).reverse.length = 16 := by rw [List.length_reverse, length_reverseFields h]
  have hlt : Bytes.ofLittleEndian (reverseFields bytes).reverse < 2 ^ 128 := by
    have hfits := Bytes.ofLittleEndian_lt (reverseFields bytes).reverse
    rwa [hlength] at hfits
  have hvalue : Bytes.toLittleEndian 16 (Bytes.ofLittleEndian (reverseFields bytes).reverse) =
      (reverseFields bytes).reverse := by
    rw [← hlength]
    exact Bytes.toLittleEndian_ofLittleEndian _
  refine ⟨⟨_, hlt⟩, ?_, ?_⟩
  · rw [ofBytes?, if_pos h]
    exact dif_pos hlt
  · rw [toBytes, hvalue, List.reverse_reverse, reverseFields_reverseFields h]

theorem ofBytes?_toBytes (g : Guid) : ofBytes? g.toBytes = some g := by
  have hreversed : reverseFields g.toBytes = (Bytes.toLittleEndian 16 g.value).reverse :=
    reverseFields_reverseFields (by rw [List.length_reverse, Bytes.length_toLittleEndian])
  have hvalue : Bytes.ofLittleEndian (reverseFields g.toBytes).reverse = g.value := by
    rw [hreversed, List.reverse_reverse, Bytes.ofLittleEndian_toLittleEndian, Nat.mod_eq_of_lt g.lt]
  rw [ofBytes?, if_pos g.length_toBytes]
  show ofNat? (Bytes.ofLittleEndian (reverseFields g.toBytes).reverse) = some g
  rw [hvalue, ofNat?, dif_pos g.lt]

theorem ofBytes?_eq_some_iff {bytes : Bytes} {g : Guid} : ofBytes? bytes = some g ↔ bytes = g.toBytes := by
  constructor
  · intro h
    have hlength : bytes.length = 16 := Decidable.by_contra fun hne => by
      rw [ofBytes?, if_neg hne] at h
      contradiction
    obtain ⟨g', hg', rfl⟩ := exists_ofBytes?_eq_some hlength
    rw [Option.some.inj (h.symm.trans hg')]
  · rintro rfl
    exact ofBytes?_toBytes g

theorem ofBytes?_eq_none_iff {bytes : Bytes} : ofBytes? bytes = none ↔ bytes.length ≠ 16 := by
  constructor
  · intro hnone hlength
    obtain ⟨g, hg, -⟩ := exists_ofBytes?_eq_some hlength
    rw [hnone] at hg
    contradiction
  · intro h
    rw [ofBytes?, if_neg h]

end Guid

end CilProbe
