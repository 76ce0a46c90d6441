import CilProbe.Bytes
import CilProbe.Binary64
import CilProbe.Opcode

/-!
# Instructions as stored

An instruction is an opcode and the argument that its kind calls for. Reading takes one instruction from the front of
the code; if the code ends inside it, the answer is how many bytes were there before the field that is not complete.

* Reading takes at least one byte: `length_of_read`.
-/

namespace CilProbe

/-- The argument of an instruction, as it is stored. -/
inductive Argument where
  | none
  | signed (value : Int)
  /-- The number of an argument or a local variable. -/
  | index (value : Nat)
  /-- The 32 bits of a single-precision number. -/
  | single (bits : Nat)
  /-- The 64 bits of a double. -/
  | double (bits : Nat)
  | token (value : Nat)
  /-- A distance from the end of the instruction. -/
  | jump (distance : Int)
  /-- The distances of a switch. -/
  | table (distances : List Int)
  deriving DecidableEq, Repr

/-- The bytes of the field behind the opcode; of a switch, those of its count. -/
def OperandKind.width : OperandKind → Nat
  | inlineNone => 0
  | shortInlineVar | shortInlineI | shortInlineBrTarget => 1
  | inlineVar => 2
  | inlineI8 | inlineR => 8
  | _ => 4

namespace Argument

/-- A field of `width` bytes at the front. -/
def readField (width : Nat) (bs : Bytes) : Except Nat (Nat × Bytes) :=
  match Bytes.split? width bs with
  | some (front, rest) => .ok (Bytes.ofLittleEndian front, rest)
  | .none => .error 0

/-- The distances of a switch with `count` cases. -/
def readJumps : Nat → Bytes → Except Nat (List Int × Bytes)
  | 0, bs => .ok ([], bs)
  | count + 1, bs =>
    match readField 4 bs with
    | .error k => .error k
    | .ok (n, rest) =>
      match readJumps count rest with
      | .error k => .error (4 + k)
      | .ok (distances, rest') => .ok (Bytes.toSigned 4 n :: distances, rest')

/-- What a field means for a kind of operand; the field of a switch is not used. -/
def ofField (kind : OperandKind) (n : Nat) : Argument :=
  match kind with
  | .inlineNone | .inlineSwitch => none
  | .shortInlineVar | .inlineVar => index n
  | .shortInlineI | .inlineI | .inlineI8 => signed (Bytes.toSigned kind.width n)
  | .shortInlineR => single n
  | .inlineR => double n
  | .shortInlineBrTarget | .inlineBrTarget => jump (Bytes.toSigned kind.width n)
  | .inlineString | .inlineMethod | .inlineField | .inlineType | .inlineTok | .inlineSig => token n

/-- The argument at the front. -/
def read (kind : OperandKind) (bs : Bytes) : Except Nat (Argument × Bytes) :=
  match readField kind.width bs with
  | .error k => .error k
  | .ok (n, rest) =>
    if kind = .inlineSwitch then
      match readJumps n rest with
      | .error k => .error (4 + k)
      | .ok (distances, rest') => .ok (table distances, rest')
    else .ok (ofField kind n, rest)

/-- The number of bytes behind the opcode. -/
def size (kind : OperandKind) : Argument → Nat
  | table distances => 4 + 4 * distances.length
  | _ => kind.width

def ofSigned (width : Nat) (n : Int) : Bytes := Bytes.toLittleEndian width (n % 256 ^ width).toNat

def toBytes (kind : OperandKind) : Argument → Bytes
  | none => []
  | signed n | jump n => ofSigned kind.width n
  | index n | single n | double n | token n => Bytes.toLittleEndian kind.width n
  | table distances => Bytes.toLittleEndian 4 distances.length ++ distances.flatMap (ofSigned 4)

end Argument

/-- An instruction as it is stored. -/
structure Instruction where
  opcode : Opcode
  argument : Argument
  deriving DecidableEq, Repr

namespace Instruction

def size (i : Instruction) : Nat := i.opcode.size + i.argument.size i.opcode.kind

def readWith (opcode : Opcode) (bs : Bytes) : Except Nat (Instruction × Bytes) :=
  match Argument.read opcode.kind bs with
  | .error k => .error (opcode.size + k)
  | .ok (argument, rest) => .ok (⟨opcode, argument⟩, rest)

/-- The instruction at the front. `FE` always starts an opcode of two bytes. -/
def read : Bytes → Except Nat (Instruction × Bytes)
  | [] => .error 0
  | [0xFE] => .error 1
  | 0xFE :: c :: rest => readWith ((Opcode.ofCode? (0xFE00 + c.toNat)).getD .unknownExtended) rest
  | b :: rest => readWith ((Opcode.ofCode? b.toNat).getD .unknown) rest

/-- The bytes of an instruction of the opcode table. -/
def toBytes (i : Instruction) : Bytes :=
  let code := if i.opcode.size = 1 then [UInt8.ofNat i.opcode.code] else [0xFE, UInt8.ofNat (i.opcode.code % 256)]
  code ++ i.argument.toBytes i.opcode.kind

private theorem length_of_readField {width n : Nat} {bs rest : Bytes} (h : Argument.readField width bs = .ok (n, rest)) :
    rest.length ≤ bs.length := by
  unfold Argument.readField at h
  split at h
  · next front rest' hs =>
    cases h
    have := (Bytes.append_of_split? hs).1
    simp [this]
  · contradiction

private theorem length_of_readJumps {count : Nat} {bs rest : Bytes} {distances : List Int}
    (h : Argument.readJumps count bs = .ok (distances, rest)) : rest.length ≤ bs.length := by
  induction count generalizing bs distances rest with
  | zero => simp only [Argument.readJumps, Except.ok.injEq, Prod.mk.injEq] at h; simp [← h.2]
  | succ count ih =>
    unfold Argument.readJumps at h
    split at h
    · contradiction
    · next hf =>
      split at h
      · contradiction
      · next hj =>
        cases h
        exact Nat.le_trans (ih hj) (length_of_readField hf)

private theorem length_of_readArgument {kind : OperandKind} {bs rest : Bytes} {argument : Argument}
    (h : Argument.read kind bs = .ok (argument, rest)) : rest.length ≤ bs.length := by
  unfold Argument.read at h
  split at h
  · contradiction
  · next hf =>
    have := length_of_readField hf
    split at h
    · split at h
      · contradiction
      · next hj =>
        cases h
        exact Nat.le_trans (length_of_readJumps hj) this
    · cases h; exact this

private theorem length_of_readWith {opcode : Opcode} {bs rest : Bytes} {i : Instruction}
    (h : readWith opcode bs = .ok (i, rest)) : rest.length ≤ bs.length := by
  unfold readWith at h
  split at h
  · contradiction
  · next ha => cases h; exact length_of_readArgument ha

theorem length_of_read {bs rest : Bytes} {i : Instruction} (h : read bs = .ok (i, rest)) : rest.length < bs.length := by
  unfold read at h
  split at h
  · contradiction
  · contradiction
  · have := length_of_readWith h
    simp only [List.length_cons]; omega
  · have := length_of_readWith h
    simp only [List.length_cons]; omega

end Instruction

end CilProbe
