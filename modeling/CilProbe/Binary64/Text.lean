import CilProbe.Decimal.Notation

/-!
# Doubles as text

A double is written with the fewest digits that read back to it: positionally if its leading digit stands between
10^-4 and 10^15, and always with a point or an exponent.
-/

namespace CilProbe.Binary64

/-- The notation of finite doubles. -/
def notationStyle : Decimal.Notation where
  plainFrom := -4
  plainBelow := 16
  pointZero := true
  exponentWidth := 2

def toText (x : Binary64) : String :=
  if x.isNaN then "nan"
  else
    (if x.isNegative then "-" else "") ++
      if x.isFinite then notationStyle.render x.magnitude.shortest else "inf"

end CilProbe.Binary64
