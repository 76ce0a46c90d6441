import CilProbe.Code.Listing
import CilProbe.Text.Quoted

/-!
# Errors of method bodies
-/

namespace CilProbe

/-- Why a method body cannot be read. -/
inductive DecodeError where
  /-- The code, of this many bytes, ends inside an instruction. -/
  | incompleteCode (size : Nat) (shortfall : Shortfall)
  /-- The header ends before the field at this offset is complete. -/
  | incompleteHeader (field : Nat)
  /-- The lowest three bits of the first byte announce no known header. -/
  | headerFormat (format : Nat)
  /-- A header that declares itself shorter than its own fields. -/
  | headerSize (size : Nat)
  /-- Fewer bytes of code than the header announces. -/
  | missingCode (expected actual : Nat)
  deriving DecidableEq, Repr

namespace DecodeError

private def notEnoughData (field : Nat) : String :=
  Text.quoted s!"not enough data while parsing method body @ offset 0x{Text.upperHex 1 field}"

def message : DecodeError → String
  | incompleteCode size shortfall =>
    s!"Method body is truncated at IL_{Text.hex 4 shortfall.start} ({size} bytes): {notEnoughData shortfall.field}"
  | incompleteHeader field => s!"Invalid method header: {notEnoughData field}"
  | headerFormat format =>
    "Invalid method header: " ++ Text.quoted s!"bad header format 0x{Text.upperHex 2 format}"
  | headerSize size => s!"Invalid fat method header size {size}"
  | missingCode expected actual => s!"Method code is truncated: expected {expected} bytes, got {actual}"

end DecodeError

/-- The listing of code that has to be complete. -/
def Listing.ofCompleteCode (code : Bytes) : Except DecodeError (Listing Empty) :=
  let listing := ofCode code
  match listing.shortfall with
  | some shortfall => .error (.incompleteCode code.length shortfall)
  | none => .ok listing

end CilProbe
