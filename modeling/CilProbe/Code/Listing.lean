import CilProbe.Code.Instruction
import CilProbe.Metadata.Token
import CilProbe.Text.Hex

/-!
# Listings

A listing is the code of a method as a sequence of instructions, each with its offset. Branch distances become offsets,
and tokens may be resolved to what they name. Code that ends inside an instruction gives the listing of the complete
instructions before it and says where it fell short.
-/

namespace CilProbe

/-- The operand of a listed instruction; tokens are resolved to values of `ρ`. -/
inductive Operand (ρ : Type) where
  | none
  | int (value : Int)
  | real (value : Binary64)
  /-- The offset that a branch leads to. -/
  | target (offset : Int)
  /-- A switch with this many cases. -/
  | cases (count : Nat)
  | unresolved (token : Nat)
  | resolved (value : ρ)
  deriving DecidableEq, Repr

/-- One line of a listing. -/
structure Line (ρ : Type) where
  offset : Nat
  opcode : Opcode
  operand : Operand ρ
  size : Nat
  deriving DecidableEq, Repr

/-- Where code ends inside an instruction: the offset of the instruction and that of the incomplete field in it. -/
structure Shortfall where
  start : Nat
  field : Nat
  deriving DecidableEq, Repr

structure Listing (ρ : Type) where
  lines : List (Line ρ)
  shortfall : Option Shortfall
  deriving DecidableEq, Repr

/-- The operand of an instruction that ends at offset `stop`. -/
def Argument.toOperand (stop : Nat) : Argument → Operand Empty
  | .none => .none
  | .signed n => .int n
  | .index n => .int n
  | .single bits => .real (.ofSingleBits bits)
  | .double bits => .real ⟨UInt64.ofNat bits⟩
  | .token t => .unresolved t
  | .jump distance => .target (stop + distance)
  | .table distances => .cases distances.length

def Instruction.toLine (offset : Nat) (i : Instruction) : Line Empty :=
  ⟨offset, i.opcode, i.argument.toOperand (offset + i.size), i.size⟩

namespace Listing

variable {ρ : Type}

/-- Whether the code ended inside an instruction. -/
def truncated (l : Listing ρ) : Bool := l.shortfall.isSome

/-- The listing of code that starts at an offset, behind the lines `before`, the last one first. -/
def continued (before : List (Line Empty)) (offset : Nat) (code : Bytes) : Listing Empty :=
  match code with
  | [] => ⟨before.reverse, none⟩
  | b :: bs =>
    match _h : Instruction.read (b :: bs) with
    | .error k => ⟨before.reverse, some ⟨offset, offset + k⟩⟩
    | .ok (i, rest) => continued (i.toLine offset :: before) (offset + i.size) rest
termination_by code.length
decreasing_by exact Instruction.length_of_read _h

/-- The listing of the code of a method, with its tokens left as they are. -/
def ofCode (code : Bytes) : Listing Empty := continued [] 0 code

/-- Whether the token of a line is looked up: a literal string has to name the table of literal strings. -/
def isResolvable (opcode : Opcode) (token : Nat) : Bool :=
  opcode.kind != .inlineString || Metadata.Token.isString token

def resolveOperand {m : Type → Type} [Monad m] (resolve : Nat → m (Option ρ)) (opcode : Opcode) :
    Operand Empty → m (Operand ρ)
  | .none => pure .none
  | .int n => pure (.int n)
  | .real x => pure (.real x)
  | .target offset => pure (.target offset)
  | .cases count => pure (.cases count)
  | .unresolved token =>
    if isResolvable opcode token then do
      return match ← resolve token with
        | some value => .resolved value
        | none => .unresolved token
    else pure (.unresolved token)

/-- Looks up the tokens in the order of the lines. A token without an answer stays as it is. -/
def resolveM {m : Type → Type} [Monad m] (resolve : Nat → m (Option ρ)) (l : Listing Empty) : m (Listing ρ) := do
  let lines ← l.lines.mapM fun line => do
    return { line with operand := ← resolveOperand resolve line.opcode line.operand }
  return ⟨lines, l.shortfall⟩

/-- Looks up the tokens with a function. -/
def resolve (lookup : Nat → Option ρ) (l : Listing Empty) : Listing ρ :=
  Id.run (l.resolveM fun token => pure (lookup token))

end Listing

namespace Line

variable {ρ : Type}

private def label (offset : Int) : String := "IL_" ++ Text.signedHex 4 offset

/-- The text of an operand behind an opcode that is no branch; `none` if nothing is written. -/
private def operandText (real : Binary64 → String) (resolved : ρ → Option String) : Operand ρ → Option String
  | .none => none
  | .int n | .target n => some (toString n)
  | .real x => some (real x)
  | .cases count => some s!"<switch {count} cases>"
  | .unresolved token => some s!"<token 0x{Text.hex 8 token}>"
  | .resolved value => resolved value

/-- A line as text, given the texts of numbers and of resolved operands. Behind a branch only an offset can be written;
`none` if something else stands there. -/
def tryRender (real : Binary64 → String) (resolved : ρ → Option String) (line : Line ρ) : Option String :=
  let head := s!"{label line.offset}: {line.opcode.mnemonic}"
  if line.opcode.isBranch then
    match line.operand with
    | .none => some head
    | .int offset | .target offset => some s!"{head} {label offset}"
    | _ => none
  else
    match operandText real resolved line.operand with
    | some text => some s!"{head} {text}"
    | none => some head

/-- A line as text. -/
def render (real : Binary64 → String) (resolved : ρ → Option String) (line : Line ρ) : String :=
  (line.tryRender real resolved).getD ""

end Line

end CilProbe
