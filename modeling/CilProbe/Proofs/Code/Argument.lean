import CilProbe.Code.Instruction
import Mathlib.Tactic.Linarith

/-!
# Arguments and their bytes

Which arguments belong to a kind of operand (`Argument.Fits`), and that reading one undoes writing it.  What was written
is read, whatever follows (`Argument.read_toBytes`), and what is read stands in front as it is written
(`Argument.eq_append_of_read`).  Where nothing is read, the field is not complete or the table of a switch is shorter
than its count (`Argument.short_of_read`), and the other way round (`Argument.exists_error_of_short`).
-/

namespace CilProbe

/-! ### Fields -/

/-- The numbers that `width` bytes hold in two's complement. -/
def Bytes.FitsSigned (width : Nat) (n : Int) : Prop := -2 ^ (8 * width - 1) ≤ n ∧ n < 2 ^ (8 * width - 1)

namespace Bytes

instance (width : Nat) (n : Int) : Decidable (FitsSigned width n) := inferInstanceAs (Decidable (_ ∧ _))

private theorem pow_eq_two_mul {width : Nat} (h : 0 < width) : 256 ^ width = 2 * 2 ^ (8 * width - 1) := by
  obtain ⟨k, rfl⟩ : ∃ k, width = k + 1 := ⟨width - 1, by omega⟩
  have h256 : 256 = 2 ^ 8 := by norm_num
  rw [h256, ← Nat.pow_mul, ← Nat.pow_succ']
  congr 1

/-- The two's complement of a number that fits reads back as the number. -/
theorem toSigned_emod {width : Nat} (hw : 0 < width) {n : Int} (h : FitsSigned width n) :
    toSigned width (n % 256 ^ width).toNat = n := by
  have hpow := pow_eq_two_mul hw
  have hpos : (0 : Int) < 256 ^ width := by positivity
  have hcast : ((256 ^ width : Nat) : Int) = 2 * 2 ^ (8 * width - 1) := by rw [hpow]; push_cast; rfl
  have hn : ((n % 256 ^ width).toNat : Int) = n % (256 ^ width : Nat) := by
    rw [Int.toNat_of_nonneg (Int.emod_nonneg _ hpos.ne')]
    push_cast
    rfl
  obtain ⟨hlow, hhigh⟩ := h
  rw [toSigned, hn, Int.emod_bmod]
  apply Int.bmod_eq_of_le_mul_two
  · rw [hcast]; linarith
  · rw [hcast]; linarith

/-- A stored number fits, and it is stored as its two's complement. -/
theorem fitsSigned_toSigned {width : Nat} (hw : 0 < width) (n : Nat) : FitsSigned width (toSigned width n) := by
  have hpow := pow_eq_two_mul hw
  have hpos : 0 < 256 ^ width := by positivity
  have hlow := Int.le_bmod (x := n) hpos
  have hhigh := Int.bmod_lt (x := n) hpos
  have hcast : ((2 ^ (8 * width - 1) : Nat) : Int) = 2 ^ (8 * width - 1) := by push_cast; rfl
  rw [FitsSigned, toSigned, ← hcast]
  constructor <;> omega

theorem toSigned_emod_toNat {width n : Nat} (h : n < 256 ^ width) : (toSigned width n % 256 ^ width).toNat = n := by
  have hcast : (256 ^ width : Int) = ((256 ^ width : Nat) : Int) := by push_cast; rfl
  rw [toSigned, hcast, Int.bmod_emod, ← Int.natCast_emod, Nat.mod_eq_of_lt h, Int.toNat_natCast]

end Bytes

namespace Argument

/-- A field that was written is read, whatever follows. -/
private theorem readField_toLittleEndian (width n : Nat) (rest : Bytes) :
    readField width (Bytes.toLittleEndian width n ++ rest) = .ok (n % 256 ^ width, rest) := by
  have hsplit := Bytes.split?_append (Bytes.toLittleEndian width n) rest
  rw [Bytes.length_toLittleEndian] at hsplit
  rw [readField, hsplit]
  simp only [Bytes.ofLittleEndian_toLittleEndian]

private theorem readField_of_lt {width n : Nat} (h : n < 256 ^ width) (rest : Bytes) :
    readField width (Bytes.toLittleEndian width n ++ rest) = .ok (n, rest) := by
  rw [readField_toLittleEndian, Nat.mod_eq_of_lt h]

private theorem eq_append_of_readField {width n : Nat} {bs rest : Bytes} (h : readField width bs = .ok (n, rest)) :
    n < 256 ^ width ∧ bs = Bytes.toLittleEndian width n ++ rest := by
  unfold readField at h
  split at h
  · next front rest' hs =>
    cases h
    obtain ⟨rfl, rfl⟩ := Bytes.append_of_split? hs
    exact ⟨Bytes.ofLittleEndian_lt front, by rw [Bytes.toLittleEndian_ofLittleEndian]⟩
  · contradiction

private theorem length_lt_of_split? {n : Nat} {bs : Bytes} (h : Bytes.split? n bs = .none) : bs.length < n := by
  by_contra hle
  have happ := Bytes.split?_append (bs.take n) (bs.drop n)
  rw [List.take_append_drop, List.length_take, Nat.min_eq_left (by omega), h] at happ
  contradiction

private theorem length_lt_of_readField {width k : Nat} {bs : Bytes} (h : readField width bs = .error k) :
    bs.length < width := by
  unfold readField at h
  split at h
  · contradiction
  · next hs => exact length_lt_of_split? hs

private theorem length_ofSigned (width : Nat) (n : Int) : (ofSigned width n).length = width := by
  rw [ofSigned, Bytes.length_toLittleEndian]

private theorem length_flatMap_ofSigned (distances : List Int) :
    (distances.flatMap (ofSigned 4)).length = 4 * distances.length := by
  induction distances with
  | nil => rfl
  | cons d distances ih =>
    rw [List.flatMap_cons, List.length_append, ih, length_ofSigned, List.length_cons]
    omega

private theorem readField_ofSigned (width : Nat) (n : Int) (rest : Bytes) :
    readField width (ofSigned width n ++ rest) = .ok ((n % 256 ^ width).toNat, rest) := by
  have hpos : (0 : Int) < 256 ^ width := by positivity
  have hlt : n % 256 ^ width < 256 ^ width := Int.emod_lt_of_pos n hpos
  have hcast : ((256 ^ width : Nat) : Int) = 256 ^ width := by push_cast; rfl
  rw [ofSigned, readField_of_lt]
  omega

private theorem readJumps_flatMap {distances : List Int} (h : ∀ d ∈ distances, Bytes.FitsSigned 4 d) (rest : Bytes) :
    readJumps distances.length (distances.flatMap (ofSigned 4) ++ rest) = .ok (distances, rest) := by
  induction distances with
  | nil => rfl
  | cons d distances ih =>
    have hd : Bytes.toSigned 4 (d % 256 ^ 4).toNat = d := Bytes.toSigned_emod (show 0 < 4 by omega) (h d (by simp))
    have hds : ∀ d' ∈ distances, Bytes.FitsSigned 4 d' := fun d' hd' => h d' (by simp [hd'])
    rw [List.flatMap_cons, List.append_assoc, List.length_cons, readJumps, readField_ofSigned]
    simp only [ih hds, hd]

private theorem ofSigned_toSigned {width n : Nat} (h : n < 256 ^ width) :
    ofSigned width (Bytes.toSigned width n) = Bytes.toLittleEndian width n := by
  rw [ofSigned, Bytes.toSigned_emod_toNat h]

private theorem eq_append_of_readJumps {count : Nat} {bs rest : Bytes} {distances : List Int}
    (h : readJumps count bs = .ok (distances, rest)) :
    distances.length = count ∧ (∀ d ∈ distances, Bytes.FitsSigned 4 d) ∧
      bs = distances.flatMap (ofSigned 4) ++ rest := by
  induction count generalizing bs distances rest with
  | zero =>
    simp only [readJumps, Except.ok.injEq, Prod.mk.injEq] at h
    obtain ⟨rfl, rfl⟩ := h
    simp
  | succ count ih =>
    unfold readJumps at h
    split at h
    · contradiction
    · next n rest₁ hf =>
      split at h
      · contradiction
      · next distances' rest₂ hj =>
        cases h
        obtain ⟨hn, rfl⟩ := eq_append_of_readField hf
        obtain ⟨hlen, hfits, rfl⟩ := ih hj
        refine ⟨by rw [List.length_cons, hlen], ?_, ?_⟩
        · intro d hd
          rcases List.mem_cons.1 hd with hd | hd
          · rw [hd]
            exact Bytes.fitsSigned_toSigned (show 0 < 4 by omega) n
          · exact hfits d hd
        · rw [List.flatMap_cons, ofSigned_toSigned hn, List.append_assoc]

private theorem length_lt_of_readJumps {count k : Nat} {bs : Bytes} (h : readJumps count bs = .error k) :
    bs.length < 4 * count := by
  induction count generalizing bs k with
  | zero => contradiction
  | succ count ih =>
    unfold readJumps at h
    split at h
    · next hf =>
      have := length_lt_of_readField hf
      omega
    · next n rest hf =>
      split at h
      · next hj =>
        obtain ⟨-, rfl⟩ := eq_append_of_readField hf
        have := ih hj
        rw [List.length_append, Bytes.length_toLittleEndian]
        omega
      · contradiction

/-! ### Arguments -/

/-- Whether an argument is one of a kind of operand and in the range of its field. -/
def Fits (kind : OperandKind) : Argument → Prop
  | none => kind = .inlineNone
  | signed n => (kind = .shortInlineI ∨ kind = .inlineI ∨ kind = .inlineI8) ∧ Bytes.FitsSigned kind.width n
  | index n => (kind = .shortInlineVar ∨ kind = .inlineVar) ∧ n < 256 ^ kind.width
  | single bits => kind = .shortInlineR ∧ bits < 2 ^ 32
  | double bits => kind = .inlineR ∧ bits < 2 ^ 64
  | token t =>
    (kind = .inlineString ∨ kind = .inlineMethod ∨ kind = .inlineField ∨ kind = .inlineType ∨ kind = .inlineTok ∨
      kind = .inlineSig) ∧ t < 2 ^ 32
  | jump distance =>
    (kind = .shortInlineBrTarget ∨ kind = .inlineBrTarget) ∧ Bytes.FitsSigned kind.width distance
  | table distances =>
    kind = .inlineSwitch ∧ distances.length < 2 ^ 32 ∧ ∀ d ∈ distances, Bytes.FitsSigned 4 d

instance (kind : OperandKind) (argument : Argument) : Decidable (argument.Fits kind) :=
  match argument with
  | none => inferInstanceAs (Decidable (kind = .inlineNone))
  | signed _ | index _ | single _ | double _ | token _ | jump _ | table _ => inferInstanceAs (Decidable (_ ∧ _))

private theorem read_of_readField {kind : OperandKind} (hk : kind ≠ .inlineSwitch) {n : Nat} {bs rest : Bytes}
    (h : readField kind.width bs = .ok (n, rest)) : read kind bs = .ok (ofField kind n, rest) := by
  rw [read, h]
  simp only [hk, ↓reduceIte]

private theorem read_index {kind : OperandKind} (hk : kind = .shortInlineVar ∨ kind = .inlineVar) {n : Nat}
    (hn : n < 256 ^ kind.width) (rest : Bytes) :
    read kind (Bytes.toLittleEndian kind.width n ++ rest) = .ok (index n, rest) := by
  have hf := readField_of_lt hn rest
  rcases hk with rfl | rfl <;> exact read_of_readField (by decide) hf

private theorem read_signed {kind : OperandKind} (hk : kind = .shortInlineI ∨ kind = .inlineI ∨ kind = .inlineI8)
    {n : Int} (hn : Bytes.FitsSigned kind.width n) (rest : Bytes) :
    read kind (ofSigned kind.width n ++ rest) = .ok (signed n, rest) := by
  have hf := readField_ofSigned kind.width n rest
  have hw : 0 < kind.width := by rcases hk with rfl | rfl | rfl <;> decide
  have hv := Bytes.toSigned_emod hw hn
  have hne : kind ≠ .inlineSwitch := by rcases hk with rfl | rfl | rfl <;> decide
  have hread := read_of_readField hne hf
  have hof : ∀ m, ofField kind m = signed (Bytes.toSigned kind.width m) := by
    rcases hk with rfl | rfl | rfl <;> exact fun _ => rfl
  rw [hread, hof, hv]

private theorem read_jump {kind : OperandKind} (hk : kind = .shortInlineBrTarget ∨ kind = .inlineBrTarget)
    {n : Int} (hn : Bytes.FitsSigned kind.width n) (rest : Bytes) :
    read kind (ofSigned kind.width n ++ rest) = .ok (jump n, rest) := by
  have hf := readField_ofSigned kind.width n rest
  have hw : 0 < kind.width := by rcases hk with rfl | rfl <;> decide
  have hv := Bytes.toSigned_emod hw hn
  have hne : kind ≠ .inlineSwitch := by rcases hk with rfl | rfl <;> decide
  have hread := read_of_readField hne hf
  have hof : ∀ m, ofField kind m = jump (Bytes.toSigned kind.width m) := by
    rcases hk with rfl | rfl <;> exact fun _ => rfl
  rw [hread, hof, hv]

/-- An argument that was written is read, whatever follows. -/
theorem read_toBytes {kind : OperandKind} {argument : Argument} (h : argument.Fits kind) (rest : Bytes) :
    read kind (argument.toBytes kind ++ rest) = .ok (argument, rest) := by
  cases argument with
  | none => obtain rfl := h; rfl
  | signed n => exact read_signed h.1 h.2 rest
  | index n => exact read_index h.1 h.2 rest
  | single bits =>
    obtain ⟨rfl, hn⟩ := h
    exact read_of_readField (by decide) (readField_of_lt hn rest)
  | double bits =>
    obtain ⟨rfl, hn⟩ := h
    exact read_of_readField (by decide) (readField_of_lt hn rest)
  | token t =>
    obtain ⟨hk, hn⟩ := h
    have hf := readField_of_lt (show t < 256 ^ 4 from hn) rest
    rcases hk with rfl | rfl | rfl | rfl | rfl | rfl <;> exact read_of_readField (by decide) hf
  | jump distance => exact read_jump h.1 h.2 rest
  | table distances =>
    obtain ⟨rfl, hlen, hfits⟩ := h
    have hf := readField_of_lt (show distances.length < 256 ^ 4 from hlen) (distances.flatMap (ofSigned 4) ++ rest)
    rw [toBytes, List.append_assoc, read]
    simp only [OperandKind.width, hf, ↓reduceIte, readJumps_flatMap hfits rest]

private theorem fits_ofField {kind : OperandKind} (hk : kind ≠ .inlineSwitch) {n : Nat} (hn : n < 256 ^ kind.width) :
    (ofField kind n).Fits kind ∧ (ofField kind n).toBytes kind = Bytes.toLittleEndian kind.width n := by
  have hs := ofSigned_toSigned hn
  cases kind with
  | inlineNone => exact ⟨rfl, rfl⟩
  | shortInlineVar => exact ⟨⟨by simp, hn⟩, rfl⟩
  | inlineVar => exact ⟨⟨by simp, hn⟩, rfl⟩
  | shortInlineI => exact ⟨⟨by simp, Bytes.fitsSigned_toSigned (by decide) n⟩, hs⟩
  | inlineI => exact ⟨⟨by simp, Bytes.fitsSigned_toSigned (by decide) n⟩, hs⟩
  | inlineI8 => exact ⟨⟨by simp, Bytes.fitsSigned_toSigned (by decide) n⟩, hs⟩
  | shortInlineR => exact ⟨⟨rfl, hn⟩, rfl⟩
  | inlineR => exact ⟨⟨rfl, hn⟩, rfl⟩
  | shortInlineBrTarget => exact ⟨⟨by simp, Bytes.fitsSigned_toSigned (by decide) n⟩, hs⟩
  | inlineBrTarget => exact ⟨⟨by simp, Bytes.fitsSigned_toSigned (by decide) n⟩, hs⟩
  | inlineSwitch => exact absurd rfl hk
  | inlineString => exact ⟨⟨by simp, hn⟩, rfl⟩
  | inlineMethod => exact ⟨⟨by simp, hn⟩, rfl⟩
  | inlineField => exact ⟨⟨by simp, hn⟩, rfl⟩
  | inlineType => exact ⟨⟨by simp, hn⟩, rfl⟩
  | inlineTok => exact ⟨⟨by simp, hn⟩, rfl⟩
  | inlineSig => exact ⟨⟨by simp, hn⟩, rfl⟩

/-- What is read fits, and it stands at the front as it is written. -/
theorem eq_append_of_read {kind : OperandKind} {argument : Argument} {bs rest : Bytes}
    (h : read kind bs = .ok (argument, rest)) : argument.Fits kind ∧ bs = argument.toBytes kind ++ rest := by
  unfold read at h
  split at h
  · contradiction
  · next n rest₁ hf =>
    obtain ⟨hn, rfl⟩ := eq_append_of_readField hf
    split at h
    · next hk =>
      subst hk
      split at h
      · contradiction
      · next distances rest₂ hj =>
        cases h
        obtain ⟨rfl, hfits, rfl⟩ := eq_append_of_readJumps hj
        exact ⟨⟨rfl, hn, hfits⟩, by rw [toBytes, List.append_assoc]; rfl⟩
    · next hk =>
      cases h
      obtain ⟨hfits, hbytes⟩ := fits_ofField hk hn
      exact ⟨hfits, by rw [hbytes]⟩

/-- Where no argument is read, its field is not complete, or the table of a switch is shorter than its count. -/
theorem short_of_read {kind : OperandKind} {k : Nat} {bs : Bytes} (h : read kind bs = .error k) :
    bs.length < kind.width ∨ kind = .inlineSwitch ∧
      ∃ count rest, count < 2 ^ 32 ∧ bs = Bytes.toLittleEndian 4 count ++ rest ∧ rest.length < 4 * count := by
  unfold read at h
  split at h
  · next hf => exact Or.inl (length_lt_of_readField hf)
  · next n rest hf =>
    obtain ⟨hn, rfl⟩ := eq_append_of_readField hf
    split at h
    · next hk =>
      subst hk
      split at h
      · next hj => exact Or.inr ⟨rfl, n, rest, hn, rfl, length_lt_of_readJumps hj⟩
      · contradiction
    · contradiction

private theorem exists_error_of_readField {width : Nat} {bs : Bytes} (h : bs.length < width) :
    ∃ k, readField width bs = .error k := by
  cases hf : readField width bs with
  | error k => exact ⟨k, rfl⟩
  | ok result =>
    obtain ⟨-, hbs⟩ := eq_append_of_readField hf
    rw [hbs, List.length_append, Bytes.length_toLittleEndian] at h
    omega

private theorem exists_error_of_readJumps {count : Nat} {bs : Bytes} (h : bs.length < 4 * count) :
    ∃ k, readJumps count bs = .error k := by
  cases hj : readJumps count bs with
  | error k => exact ⟨k, rfl⟩
  | ok result =>
    obtain ⟨hlen, -, hbs⟩ := eq_append_of_readJumps hj
    rw [hbs, List.length_append, length_flatMap_ofSigned, hlen] at h
    omega

/-- Nothing is read from an incomplete field, nor from a table that is shorter than its count. -/
theorem exists_error_of_short {kind : OperandKind} {bs : Bytes}
    (h : bs.length < kind.width ∨ kind = .inlineSwitch ∧
      ∃ count rest, count < 2 ^ 32 ∧ bs = Bytes.toLittleEndian 4 count ++ rest ∧ rest.length < 4 * count) :
    ∃ k, read kind bs = .error k := by
  rcases h with hlen | ⟨rfl, count, rest, hcount, rfl, hlen⟩
  · obtain ⟨k, hk⟩ := exists_error_of_readField hlen
    exact ⟨k, by rw [read, hk]⟩
  · have hf := readField_of_lt (show count < 256 ^ 4 from hcount) rest
    obtain ⟨k, hk⟩ := exists_error_of_readJumps hlen
    exact ⟨4 + k, by rw [read]; simp only [OperandKind.width, hf, ↓reduceIte, hk]⟩

/-- The size of an argument is the number of its bytes. -/
theorem length_toBytes {kind : OperandKind} {argument : Argument} (h : argument.Fits kind) :
    (argument.toBytes kind).length = argument.size kind := by
  cases argument with
  | none => obtain rfl := h; rfl
  | signed n => exact length_ofSigned kind.width n
  | jump distance => exact length_ofSigned kind.width distance
  | index n => exact Bytes.length_toLittleEndian kind.width n
  | single bits => exact Bytes.length_toLittleEndian kind.width bits
  | double bits => exact Bytes.length_toLittleEndian kind.width bits
  | token t => exact Bytes.length_toLittleEndian kind.width t
  | table distances =>
    rw [toBytes, List.length_append, Bytes.length_toLittleEndian, length_flatMap_ofSigned, size]

end Argument

end CilProbe
