/-!
# Hexadecimal numerals

Tokens, addresses and code offsets are written in base sixteen, padded with zeros to a least width.
-/

namespace CilProbe.Text

/-- A numeral with zeros put in front of it up to a width. -/
private def padded (width : Nat) (digits : List Char) : String :=
  String.ofList (List.replicate (width - digits.length) '0' ++ digits)

/-- Base sixteen with small letters. -/
def hex (width n : Nat) : String := padded width (Nat.toDigits 16 n)

/-- Base sixteen with capital letters. -/
def upperHex (width n : Nat) : String := padded width ((Nat.toDigits 16 n).map Char.toUpper)

/-- Base sixteen with small letters; a minus sign counts towards the width. -/
def signedHex (width : Nat) : Int → String
  | .ofNat n => hex width n
  | .negSucc n => "-" ++ hex (width - 1) (n + 1)

end CilProbe.Text
