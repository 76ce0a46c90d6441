import CilProbe.Binary64

/-!
# Shortest decimals

The text of a double has the fewest digits that read back to it. The decimals that round to a double fill the interval
between the midpoints to its two neighbours, with the ends exactly if the significand is even. For one digit, two
digits and so on, only the two neighbours of the value on that decimal grid can lie in the interval before any other
point does; the first grid with a hit wins, then the nearer of two hits, then the even one.
-/

namespace CilProbe

/-- A decimal `coefficient · 10^exponent`. -/
structure Scientific where
  coefficient : Nat
  exponent : Int
  deriving DecidableEq, Repr

namespace Magnitude

/-- Compares `a · 10^i` with `b · 2^j`. -/
private def compareScaled (a : Nat) (i : Int) (b : Nat) (j : Int) : Ordering :=
  compare (a * 10 ^ i.toNat * 2 ^ (-j).toNat) (b * 2 ^ j.toNat * 10 ^ (-i).toNat)

/-- Whether a decimal rounds to this double, to nearest and ties to even. -/
def readsBack (x : Magnitude) (d : Scientific) : Bool :=
  let below := 4 * x.significand - if x.narrowBelow then 1 else 2
  let above := 4 * x.significand + 2
  let closed := x.significand % 2 = 0
  let low := compareScaled d.coefficient d.exponent below (x.exponent - 2)
  let high := compareScaled d.coefficient d.exponent above (x.exponent - 2)
  (low == .gt || closed && low == .eq) && (high == .lt || closed && high == .eq)

/-- The decimal that equals the double. -/
def exact (x : Magnitude) : Scientific :=
  if x.exponent ≥ 0 then ⟨x.significand * 2 ^ x.exponent.toNat, 0⟩
  else ⟨x.significand * 5 ^ (-x.exponent).toNat, x.exponent⟩

/-- The best decimal whose coefficient drops the last `k` digits of the exact one, if one reads back. -/
def onGrid (x : Magnitude) (k : Nat) : Option Scientific :=
  let full := x.exact
  let grid := 10 ^ k
  let down : Scientific := ⟨full.coefficient / grid, full.exponent + k⟩
  let up : Scientific := ⟨full.coefficient / grid + 1, full.exponent + k⟩
  match x.readsBack down, x.readsBack up with
  | true, true =>
    match compare (2 * (full.coefficient % grid)) grid with
    | .lt => some down
    | .gt => some up
    | .eq => some (if down.coefficient % 2 = 0 then down else up)
  | true, false => some down
  | false, true => some up
  | false, false => none

/-- The decimal with the fewest digits that reads back. The coarsest grid tried is the power of ten above the value. -/
def shortest (x : Magnitude) : Scientific :=
  if x.significand = 0 then ⟨0, 0⟩ else
  let digits := (toString x.exact.coefficient).length
  ((List.range (digits + 1)).findSome? fun n => x.onGrid (digits - n)).getD x.exact

end Magnitude

end CilProbe
