import CilProbe.Text.Hex
import CilProbe.Text.Unprintable

/-!
# Quoted text

A text is quoted in single quotes, or in double quotes if it holds a single quote and no double quote. Inside, the
backslash, the enclosing quote, line feed, carriage return and tab are written with a backslash and a letter, and other
unprintable characters by the hexadecimal number of their code point in two, four or eight digits.
-/

namespace CilProbe.Text

/-- How one character is written between quotes. -/
def quotedChar (delimiter c : Char) : String :=
  if c = delimiter ∨ c = '\\' then String.ofList ['\\', c]
  else if c = '\n' then "\\n"
  else if c = '\r' then "\\r"
  else if c = '\t' then "\\t"
  else if isPrintable c then c.toString
  else if c.toNat < 0x100 then "\\x" ++ hex 2 c.toNat
  else if c.toNat < 0x10000 then "\\u" ++ hex 4 c.toNat
  else "\\U" ++ hex 8 c.toNat

def quoted (s : String) : String :=
  let delimiter := if s.toList.contains '\'' && !s.toList.contains '"' then '"' else '\''
  delimiter.toString ++ String.join (s.toList.map (quotedChar delimiter)) ++ delimiter.toString

end CilProbe.Text
