import CilProbe.Decimal.Shortest

/-!
# Notation of decimals

Where the digits of a number stand: positional notation for middling exponents, scientific notation otherwise. The
choices that differ between outputs are fields of `Notation`.
-/

namespace CilProbe.Decimal

/-- How a number with a given leading digit is written. -/
structure Notation where
  /-- The least exponent of the leading digit that is written positionally. -/
  plainFrom : Int
  /-- The exponent of the leading digit from which on scientific notation is used. -/
  plainBelow : Int
  /-- Whole numbers keep a zero behind the point. -/
  pointZero : Bool
  /-- The least number of digits of the exponent. -/
  exponentWidth : Nat

/-- A row of zeros. -/
def zeros (n : Nat) : String := String.ofList (List.replicate n '0')

/-- The digits with a point behind the first `n` of them, or leading zeros where `n` is not positive. -/
def pointed (digits : String) (n : Int) : String :=
  if n ≤ 0 then "0." ++ zeros (-n).toNat ++ digits
  else (digits.take n.toNat).toString ++ "." ++ (digits.drop n.toNat).toString

namespace Notation

/-- A nonnegative decimal in this notation. -/
def render (style : Notation) (d : Scientific) : String :=
  let digits := toString d.coefficient
  let leading := d.exponent + digits.length - 1
  if style.plainFrom ≤ leading ∧ leading < style.plainBelow then
    if d.exponent ≥ 0 then digits ++ zeros d.exponent.toNat ++ if style.pointZero then ".0" else ""
    else pointed digits (leading + 1)
  else
    let exponent := toString leading.natAbs
    let mantissa := if digits.length = 1 then digits else pointed digits 1
    mantissa ++ (if leading < 0 then "e-" else "e+") ++ zeros (style.exponentWidth - exponent.length) ++ exponent

end Notation

end CilProbe.Decimal
