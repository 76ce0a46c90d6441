import CilProbe.Decimal.Notation

/-!
# Decimal numbers

A decimal number keeps the digits it was written with, so that `1.10` and `1.1` differ. It has a signed zero, infinities
and, as results of failed computations, quiet and signaling NaNs with an optional diagnostic number.
-/

namespace CilProbe

inductive Decimal where
  /-- The number `± coefficient · 10^exponent`. -/
  | finite (negative : Bool) (coefficient : Nat) (exponent : Int)
  | infinite (negative : Bool)
  /-- A payload of zero is not written. -/
  | nan (negative signaling : Bool) (payload : Nat)
  deriving DecidableEq, Repr

namespace Decimal

def zero : Decimal := finite false 0 0

/-- The digits of a coefficient with its exponent. They stand positionally if there are no places to fill behind them
and at most five zeros between the point and the first of them. -/
def magnitudeText (coefficient : Nat) (exponent : Int) : String :=
  let digits := toString coefficient
  let places := exponent + digits.length
  if exponent = 0 then digits
  else if exponent < 0 ∧ -6 < places then pointed digits places
  else
    let mantissa := if digits.length = 1 then digits else pointed digits 1
    mantissa ++ (if places < 1 then "E-" else "E+") ++ toString (places - 1).natAbs

def toText : Decimal → String
  | finite negative coefficient exponent => (if negative then "-" else "") ++ magnitudeText coefficient exponent
  | infinite negative => (if negative then "-" else "") ++ "Infinity"
  | nan negative signaling payload =>
    (if negative then "-" else "") ++ (if signaling then "sNaN" else "NaN") ++
      if payload = 0 then "" else toString payload

end Decimal

end CilProbe
