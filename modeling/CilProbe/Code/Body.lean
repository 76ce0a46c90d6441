import CilProbe.Code.DecodeError
import CilProbe.Power

/-!
# Method bodies

A method body is a header and the code behind it. A tiny header is one byte: its format in the lowest two or three bits
and the size of the code in the upper six. A fat header has twelve bytes, and its size in words stands in the upper four
bits of the flags, so that more bytes may lie between its fields and the code.
-/

namespace CilProbe

structure MethodHeader where
  isFat : Bool
  headerSize : Nat
  codeSize : Nat
  maxStack : Nat := 8
  flags : Nat := 0
  localVarSigToken : Nat := 0
  deriving DecidableEq, Repr

namespace MethodHeader

/-- The size of the fields of a fat header. -/
def fatSize : Nat := 12

/-- The header at the front of a method body. -/
def read : Bytes → Except DecodeError MethodHeader
  | [] => .error (.incompleteHeader 0)
  | first :: rest =>
    match first.toNat % 8 with
    | 2 | 6 => .ok { isFat := false, headerSize := 1, codeSize := first.toNat / 4 }
    | 3 =>
      match rest with
      | [] => .error (.incompleteHeader 1)
      | second :: rest =>
        if rest.length < 2 then .error (.incompleteHeader 2)
        else if rest.length < 6 then .error (.incompleteHeader 4)
        else if rest.length < 10 then .error (.incompleteHeader 8)
        else
          let flags := first.toNat + 256 * second.toNat
          let headerSize := flags / 2 ^ 12 * 4
          if headerSize < fatSize then .error (.headerSize headerSize)
          else
            .ok { isFat := true, headerSize, codeSize := Bytes.ofLittleEndian ((rest.drop 2).take 4)
                  maxStack := Bytes.ofLittleEndian (rest.take 2), flags := flags % 2 ^ 12
                  localVarSigToken := Bytes.ofLittleEndian ((rest.drop 6).take 4) }
    | format => .error (.headerFormat format)

end MethodHeader

/-- The header of a method body and the code behind it. -/
def readMethodBody (data : Bytes) : Except DecodeError (MethodHeader × Bytes) := do
  let header ← MethodHeader.read data
  let code := (data.drop header.headerSize).take header.codeSize
  if code.length < header.codeSize then throw (.missingCode header.codeSize code.length)
  return (header, code)

end CilProbe
