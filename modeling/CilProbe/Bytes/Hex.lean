import CilProbe.Bytes
import CilProbe.Text.Hex

/-!
# Hexadecimal dumps

Bytes as text, with two digits for each of them.
-/

namespace CilProbe

/-- The dump of bytes, in small letters. -/
def Bytes.toHex (bs : Bytes) : String := String.join (bs.map fun b => Text.hex 2 b.toNat)

/-- The value of a digit; letters may be small or capital. -/
private def digitValue (c : Char) : Nat :=
  if c.isDigit then c.toNat - '0'.toNat else if c.isLower then c.toNat - 'a'.toNat + 10 else c.toNat - 'A'.toNat + 10

/-- The bytes of a dump. -/
def Buffer.ofHex (dump : String) : Buffer := append #[] dump.toList
where
  append (bytes : Buffer) : List Char → Buffer
    | high :: low :: rest => append (bytes.push (UInt8.ofNat (16 * digitValue high + digitValue low))) rest
    | _ => bytes

end CilProbe
