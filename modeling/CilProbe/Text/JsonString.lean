import CilProbe.Text.Hex
import CilProbe.Text.Utf16

/-!
# JSON strings

A string is written in ASCII alone: quotes, backslashes and the common control characters with a backslash, all other
characters beyond the printable ones of ASCII by the numbers of their UTF-16 code units.
-/

namespace CilProbe.Text

/-- The numbers of code units that are given by their bytes. -/
private def escapedUnits : Bytes → String
  | low :: high :: rest => "\\u" ++ hex 4 (low.toNat + 256 * high.toNat) ++ escapedUnits rest
  | _ => ""

/-- How one character is written. -/
def jsonChar (c : Char) : String :=
  if c = '"' then "\\\""
  else if c = '\\' then "\\\\"
  else if c = '\n' then "\\n"
  else if c = '\r' then "\\r"
  else if c = '\t' then "\\t"
  else if c = '\x08' then "\\b"
  else if c = '\x0c' then "\\f"
  else if ' ' ≤ c ∧ c ≤ '~' then c.toString
  else escapedUnits (Utf16.encodeChar c)

def jsonString (s : String) : String := "\"" ++ String.join (s.toList.map jsonChar) ++ "\""

end CilProbe.Text
