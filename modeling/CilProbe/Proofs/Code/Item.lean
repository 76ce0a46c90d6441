import CilProbe.Proofs.Code.Argument
import Mathlib.Data.List.Nodup

/-!
# Instructions and their bytes

An item is an instruction to be written: an opcode of the table with an argument that fits, or one or two bytes that are
no opcode.  Reading an instruction undoes writing it, whatever follows (`Instruction.read_toBytes`), and what is read is
an item as it is written (`Instruction.exists_item_of_read`).  Bytes from which nothing can be read end inside an
instruction (`Instruction.incomplete_of_read`), and such bytes begin with no item (`Incomplete.ne_toBytes_append`).

The table also lists the byte `FE` alone.  It is never read as an opcode, because it announces a second byte.
-/

namespace CilProbe

/-! ### The opcode table -/

namespace Opcode

theorem mem_all_of_ofCode? {code : Nat} {op : Opcode} (h : ofCode? code = some op) : op ∈ all ∧ op.code = code :=
  ⟨List.mem_of_find?_eq_some h, by simpa using List.find?_some h⟩

/-- Whether the numbers differ from each other and from those whose bits are set in `seen`. -/
private def allFresh : (seen : Nat) → List Nat → Bool
  | _, [] => true
  | seen, n :: ns => !seen.testBit n && allFresh (seen ||| 1 <<< n) ns

private theorem nodup_of_allFresh {seen : Nat} {ns : List Nat} (h : allFresh seen ns = true) :
    ns.Nodup ∧ ∀ n ∈ ns, seen.testBit n = false := by
  induction ns generalizing seen with
  | nil => simp
  | cons n ns ih =>
    simp only [allFresh, Bool.and_eq_true, Bool.not_eq_true'] at h
    obtain ⟨hnodup, hfresh⟩ := ih h.2
    have hbit : ∀ m ∈ ns, seen.testBit m = false ∧ (1 <<< n).testBit m = false := by
      intro m hm
      simpa using hfresh m hm
    refine ⟨List.nodup_cons.2 ⟨?_, hnodup⟩, ?_⟩
    · intro hn
      have := (hbit n hn).2
      simp [Nat.testBit_shiftLeft] at this
    · intro m hm
      rcases List.mem_cons.1 hm with rfl | hm
      · exact h.1
      · exact (hbit m hm).1

/-- No two opcodes of the table have one code. -/
theorem nodup_codes : (all.map (·.code)).Nodup := by
  -- Deciding `Nodup` itself compares all pairs, which takes long.
  have h : allFresh 0 (all.map (·.code)) = true := by decide +kernel
  exact (nodup_of_allFresh h).1

theorem ofCode?_code {op : Opcode} (h : op ∈ all) : ofCode? op.code = some op := by
  cases hf : ofCode? op.code with
  | none =>
    have hnone := List.find?_eq_none.1 hf op h
    simp at hnone
  | some op' =>
    obtain ⟨hmem, hcode⟩ := mem_all_of_ofCode? hf
    rw [List.inj_on_of_nodup_map nodup_codes hmem h hcode]

/-- Codes of one byte, and codes of two bytes of which the first is `FE`. -/
theorem size_of_mem {op : Opcode} (h : op ∈ all) :
    op.size = 1 ∧ op.code < 0x100 ∨ op.size = 2 ∧ 0xFE00 ≤ op.code ∧ op.code < 0xFF00 := by
  have hall : ∀ op ∈ all, op.size = 1 ∧ op.code < 0x100 ∨ op.size = 2 ∧ 0xFE00 ≤ op.code ∧ op.code < 0xFF00 := by
    decide +kernel
  exact hall op h

/-- Bytes that are read as an opcode: one byte other than `FE`, or `FE` and a second byte. -/
inductive Spelled : Bytes → Opcode → Prop
  | short {b : UInt8} (h : b ≠ 0xFE) : Spelled [b] ((ofCode? b.toNat).getD unknown)
  | extended (c : UInt8) : Spelled [0xFE, c] ((ofCode? (0xFE00 + c.toNat)).getD unknownExtended)

/-- The bytes of an opcode of the table. -/
def bytes (op : Opcode) : Bytes :=
  if op.size = 1 then [UInt8.ofNat op.code] else [0xFE, UInt8.ofNat (op.code % 256)]

private theorem spelled_of_mem {op : Opcode} (h : op ∈ all) (hne : op.code ≠ 0xFE) : Spelled op.bytes op := by
  have hcode := ofCode?_code h
  rcases size_of_mem h with ⟨hs, hlt⟩ | ⟨hs, hle, hlt⟩
  · have hb : (UInt8.ofNat op.code).toNat = op.code := by rw [UInt8.toNat_ofNat']; omega
    have hfe : UInt8.ofNat op.code ≠ 0xFE := by
      intro he
      rw [he] at hb
      exact hne hb.symm
    have hsp := Spelled.short hfe
    rw [hb, hcode] at hsp
    rw [bytes, if_pos hs]
    exact hsp
  · have hb : 0xFE00 + (UInt8.ofNat (op.code % 256)).toNat = op.code := by rw [UInt8.toNat_ofNat']; omega
    have hsp := Spelled.extended (UInt8.ofNat (op.code % 256))
    rw [hb, hcode] at hsp
    rw [bytes, if_neg (by omega)]
    exact hsp

private theorem bytes_of_code_byte {op : Opcode} (h : op ∈ all) {b : UInt8} (hb : op.code = b.toNat) :
    op.bytes = [b] := by
  have hlt := b.toNat_lt
  rcases size_of_mem h with ⟨hs, -⟩ | ⟨-, hle, -⟩
  · rw [bytes, if_pos hs, hb, UInt8.ofNat_toNat]
  · omega

private theorem bytes_of_code_extended {op : Opcode} (h : op ∈ all) {c : UInt8} (hc : op.code = 0xFE00 + c.toNat) :
    op.bytes = [0xFE, c] := by
  have hlt := c.toNat_lt
  have hmod : op.code % 256 = c.toNat := by omega
  rcases size_of_mem h with ⟨-, hle⟩ | ⟨hs, -, -⟩
  · omega
  · rw [bytes, if_neg (by omega), hmod, UInt8.ofNat_toNat]

private theorem Spelled.length {code : Bytes} {op : Opcode} (h : Spelled code op) : code.length = op.size := by
  cases h with
  | @short b hb =>
    cases hc : ofCode? b.toNat with
    | none => rfl
    | some op =>
      obtain ⟨hm, hcode⟩ := mem_all_of_ofCode? hc
      have hlt := b.toNat_lt
      rcases size_of_mem hm with ⟨hs, -⟩ | ⟨-, hle, -⟩
      · rw [Option.getD_some, hs]; rfl
      · omega
  | extended c =>
    cases hc : ofCode? (0xFE00 + c.toNat) with
    | none => rfl
    | some op =>
      obtain ⟨hm, hcode⟩ := mem_all_of_ofCode? hc
      rcases size_of_mem hm with ⟨-, hlt⟩ | ⟨hs, -, -⟩
      · omega
      · rw [Option.getD_some, hs]; rfl

end Opcode

/-! ### Items -/

/-- An instruction to be written. -/
inductive Item where
  /-- An opcode of the table with its argument. -/
  | listed (opcode : Opcode) (argument : Argument)
  /-- A byte that is no opcode. -/
  | unlisted (byte : UInt8)
  /-- `FE` and a byte that is no opcode with it. -/
  | unlistedExtended (byte : UInt8)
  deriving DecidableEq, Repr

namespace Item

/-- Whether the table has the opcode and the argument fits, or the table has no opcode with these bytes. -/
def Valid : Item → Prop
  | listed opcode argument => opcode ∈ Opcode.all ∧ argument.Fits opcode.kind
  | unlisted b => Opcode.ofCode? b.toNat = none
  | unlistedExtended c => Opcode.ofCode? (0xFE00 + c.toNat) = none

/-- Whether the item is the byte `FE` alone. -/
def IsEscape : Item → Prop
  | listed opcode _ => opcode.code = 0xFE
  | _ => False

instance (item : Item) : Decidable item.Valid :=
  match item with
  | listed opcode argument => inferInstanceAs (Decidable (opcode ∈ Opcode.all ∧ argument.Fits opcode.kind))
  | unlisted b => inferInstanceAs (Decidable (Opcode.ofCode? b.toNat = none))
  | unlistedExtended c => inferInstanceAs (Decidable (Opcode.ofCode? (0xFE00 + c.toNat) = none))

instance (item : Item) : Decidable item.IsEscape :=
  match item with
  | listed opcode _ => inferInstanceAs (Decidable (opcode.code = 0xFE))
  | unlisted _ | unlistedExtended _ => inferInstanceAs (Decidable False)

def toBytes : Item → Bytes
  | listed opcode argument => (Instruction.mk opcode argument).toBytes
  | unlisted b => [b]
  | unlistedExtended c => [0xFE, c]

/-- What the item is read as. -/
def instruction : Item → Instruction
  | listed opcode argument => ⟨opcode, argument⟩
  | unlisted _ => ⟨.unknown, .none⟩
  | unlistedExtended _ => ⟨.unknownExtended, .none⟩

/-- The bytes of an item are those of an opcode and of an argument that fits. -/
private theorem exists_spelled {item : Item} (h : item.Valid) (hne : ¬item.IsEscape) :
    ∃ code, Opcode.Spelled code item.instruction.opcode ∧
      item.instruction.argument.Fits item.instruction.opcode.kind ∧
      item.toBytes = code ++ item.instruction.argument.toBytes item.instruction.opcode.kind := by
  cases item with
  | listed opcode argument => exact ⟨opcode.bytes, Opcode.spelled_of_mem h.1 hne, h.2, rfl⟩
  | unlisted b =>
    have hfe : b ≠ 0xFE := by
      rintro rfl
      have hlisted : Opcode.ofCode? 0xFE ≠ none := by decide +kernel
      exact hlisted h
    have hsp := Opcode.Spelled.short hfe
    rw [show Opcode.ofCode? b.toNat = none from h] at hsp
    exact ⟨[b], hsp, rfl, rfl⟩
  | unlistedExtended c =>
    have hsp := Opcode.Spelled.extended c
    rw [show Opcode.ofCode? (0xFE00 + c.toNat) = none from h] at hsp
    exact ⟨[0xFE, c], hsp, rfl, rfl⟩

private theorem eq_none_of_fits {argument : Argument} (h : argument.Fits .inlineNone) : argument = .none := by
  cases argument <;> simp_all [Argument.Fits]

/-- An opcode and an argument that fits are the bytes of an item. -/
private theorem exists_of_spelled {code : Bytes} {opcode : Opcode} {argument : Argument}
    (h : Opcode.Spelled code opcode) (hfits : argument.Fits opcode.kind) :
    ∃ item : Item, item.Valid ∧ ¬item.IsEscape ∧ item.instruction = ⟨opcode, argument⟩ ∧
      item.toBytes = code ++ argument.toBytes opcode.kind := by
  cases h with
  | @short b hb =>
    cases hc : Opcode.ofCode? b.toNat with
    | none =>
      rw [hc] at hfits
      obtain rfl := eq_none_of_fits hfits
      exact ⟨unlisted b, hc, fun h => h, rfl, rfl⟩
    | some op =>
      rw [hc] at hfits
      obtain ⟨hmem, hcode⟩ := Opcode.mem_all_of_ofCode? hc
      have hne : op.code ≠ 0xFE := by
        intro he
        exact hb (UInt8.toNat_inj.1 (hcode.symm.trans he))
      refine ⟨listed op argument, ⟨hmem, hfits⟩, hne, rfl, ?_⟩
      rw [← Opcode.bytes_of_code_byte hmem hcode]
      rfl
  | extended c =>
    cases hc : Opcode.ofCode? (0xFE00 + c.toNat) with
    | none =>
      rw [hc] at hfits
      obtain rfl := eq_none_of_fits hfits
      exact ⟨unlistedExtended c, hc, fun h => h, rfl, rfl⟩
    | some op =>
      rw [hc] at hfits
      obtain ⟨hmem, hcode⟩ := Opcode.mem_all_of_ofCode? hc
      have hne : op.code ≠ 0xFE := by omega
      refine ⟨listed op argument, ⟨hmem, hfits⟩, hne, rfl, ?_⟩
      rw [← Opcode.bytes_of_code_extended hmem hcode]
      rfl

/-- The size of an instruction is the number of its bytes. -/
theorem length_toBytes {item : Item} (h : item.Valid) (hne : ¬item.IsEscape) :
    item.toBytes.length = item.instruction.size := by
  obtain ⟨code, hsp, hfits, hbytes⟩ := exists_spelled h hne
  rw [hbytes, List.length_append, hsp.length, Argument.length_toBytes hfits, Instruction.size]

end Item

/-! ### Reading -/

/-- Bytes that end inside an instruction. -/
inductive Incomplete : Bytes → Prop
  /-- The second byte of an opcode is missing. -/
  | opcode : Incomplete [0xFE]
  /-- The field of the argument is not complete; for a switch this is the field of its count. -/
  | field {code rest : Bytes} {op : Opcode} (h : Opcode.Spelled code op) (hlen : rest.length < op.kind.width) :
    Incomplete (code ++ rest)
  /-- The table of a switch is shorter than its count. -/
  | table {code rest : Bytes} {op : Opcode} {count : Nat} (h : Opcode.Spelled code op)
    (hk : op.kind = .inlineSwitch) (hcount : count < 2 ^ 32) (hlen : rest.length < 4 * count) :
    Incomplete (code ++ (Bytes.toLittleEndian 4 count ++ rest))

theorem Incomplete.ne_nil {bs : Bytes} (h : Incomplete bs) : bs ≠ [] := by
  cases h with
  | opcode => simp
  | field hsp hlen => cases hsp <;> simp
  | table hsp hk hcount hlen => cases hsp <;> simp

namespace Instruction

/-- Bytes are empty, or the byte `FE` alone, or an opcode and what follows it. -/
private theorem bytes_cases (bs : Bytes) :
    bs = [] ∨ bs = [0xFE] ∨ ∃ code op rest, Opcode.Spelled code op ∧ bs = code ++ rest := by
  match bs with
  | [] => exact Or.inl rfl
  | b :: rest =>
    by_cases hb : b = 0xFE
    · subst hb
      match rest with
      | [] => exact Or.inr (Or.inl rfl)
      | c :: rest => exact Or.inr (Or.inr ⟨[0xFE, c], _, rest, .extended c, rfl⟩)
    · exact Or.inr (Or.inr ⟨[b], _, rest, .short hb, rfl⟩)

private theorem read_of_spelled {code : Bytes} {op : Opcode} (h : Opcode.Spelled code op) (rest : Bytes) :
    read (code ++ rest) = readWith op rest := by
  cases h with
  | @short b hb =>
    show read (b :: rest) = _
    rw [read]
    · intro h
      simp_all
    · intro c rest' h
      simp_all
  | extended c => rfl

/-- An item that was written is read, whatever follows. -/
theorem read_toBytes {item : Item} (h : item.Valid) (hne : ¬item.IsEscape) (rest : Bytes) :
    read (item.toBytes ++ rest) = .ok (item.instruction, rest) := by
  obtain ⟨code, hsp, hfits, hbytes⟩ := Item.exists_spelled h hne
  rw [hbytes, List.append_assoc, read_of_spelled hsp, readWith, Argument.read_toBytes hfits]

/-- What is read is an item as it is written. -/
theorem exists_item_of_read {bs rest : Bytes} {i : Instruction} (h : read bs = .ok (i, rest)) :
    ∃ item : Item, item.Valid ∧ ¬item.IsEscape ∧ item.instruction = i ∧ bs = item.toBytes ++ rest := by
  rcases bytes_cases bs with rfl | rfl | ⟨code, op, tail, hsp, rfl⟩
  · contradiction
  · contradiction
  · rw [read_of_spelled hsp] at h
    unfold readWith at h
    split at h
    · contradiction
    · next argument rest' ha =>
      cases h
      obtain ⟨hfits, rfl⟩ := Argument.eq_append_of_read ha
      obtain ⟨item, hv, hne, hi, hbytes⟩ := Item.exists_of_spelled hsp hfits
      exact ⟨item, hv, hne, hi, by rw [hbytes, List.append_assoc]⟩

/-- Where there are bytes and nothing is read, the bytes end inside an instruction. -/
theorem incomplete_of_read {bs : Bytes} {k : Nat} (hne : bs ≠ []) (h : read bs = .error k) : Incomplete bs := by
  rcases bytes_cases bs with rfl | rfl | ⟨code, op, tail, hsp, rfl⟩
  · exact absurd rfl hne
  · exact .opcode
  · rw [read_of_spelled hsp] at h
    unfold readWith at h
    split at h
    · next ha =>
      rcases Argument.short_of_read ha with hlen | ⟨hk, count, rest, hcount, rfl, hlen⟩
      · exact .field hsp hlen
      · exact .table hsp hk hcount hlen
    · contradiction

private theorem exists_error_of_argument {code bs : Bytes} {op : Opcode} (hsp : Opcode.Spelled code op)
    (h : ∃ k, Argument.read op.kind bs = .error k) : ∃ k, read (code ++ bs) = .error k := by
  obtain ⟨k, hk⟩ := h
  exact ⟨op.size + k, by rw [read_of_spelled hsp, readWith, hk]⟩

/-- Nothing is read from bytes that end inside an instruction. -/
theorem exists_error_of_incomplete {bs : Bytes} (h : Incomplete bs) : ∃ k, read bs = .error k := by
  cases h with
  | opcode => exact ⟨1, rfl⟩
  | field hsp hlen => exact exists_error_of_argument hsp (Argument.exists_error_of_short (Or.inl hlen))
  | @table _ rest _ count hsp hk hcount hlen =>
    refine exists_error_of_argument hsp (Argument.exists_error_of_short (Or.inr ⟨hk, count, rest, hcount, rfl, hlen⟩))

end Instruction

/-- Bytes that end inside an instruction begin with no item. -/
theorem Incomplete.ne_toBytes_append {bs : Bytes} (h : Incomplete bs) {item : Item} (hv : item.Valid)
    (hne : ¬item.IsEscape) (rest : Bytes) : bs ≠ item.toBytes ++ rest := by
  rintro rfl
  obtain ⟨k, hk⟩ := Instruction.exists_error_of_incomplete h
  rw [Instruction.read_toBytes hv hne] at hk
  contradiction

end CilProbe
