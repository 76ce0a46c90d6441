import CilProbe.Guid
import CilProbe.Text.Numeral

/-!
# Reading identifiers

Prefixes, braces and dashes are dropped, whatever their place; thirty-two characters have to be left, and they are read
as a number in base sixteen.
-/

namespace CilProbe.Guid

/-- Leaves out each place where `word` stands, from left to right, after `skip` characters that are left out anyway. -/
private def without (word : List Char) : (skip : Nat) → List Char → List Char
  | _, [] => []
  | skip + 1, _ :: cs => without word skip cs
  | 0, c :: cs => if word.isPrefixOf (c :: cs) then without word (word.length - 1) cs else c :: without word 0 cs

private def isBrace (c : Char) : Bool := c == '\x7b' || c == '\x7d'

/-- The characters that make up the number. -/
private def digitsOf (s : String) : List Char :=
  let bare := without "uuid:".toList 0 (without "urn:".toList 0 s.toList)
  (((bare.dropWhile isBrace).reverse.dropWhile isBrace).reverse).filter (· != '-')

/-- The identifier that a text writes. -/
def ofText? (s : String) : Option Guid :=
  let digits := digitsOf (Text.strip s)
  if digits.length = 32 then
    match Text.hexInteger? (String.ofList digits) with
    | some (.ofNat n) => ofNat? n
    | _ => none
  else none

end CilProbe.Guid
