import CilProbe.Power

/-!
# Binary floating point

A double is held as its 64 bits. All arithmetic is exact: a finite double stands for `significand · 2^exponent`,
and a rational number is brought back to a double by one rounding to nearest, ties to even. So nothing here depends
on the machine's floating point unit, and equality of doubles is equality of bits.
-/

namespace CilProbe

/-- An IEEE 754 double by its bits. -/
structure Binary64 where
  bits : UInt64
  deriving DecidableEq, Repr

/-- A non-negative finite double: `significand · 2^exponent`. -/
structure Magnitude where
  significand : Nat
  exponent : Int
  /-- The double below is half as far away as the double above. -/
  narrowBelow : Bool
  deriving DecidableEq, Repr

namespace Binary64

def isNegative (x : Binary64) : Bool := x.bits.toNat ≥ 2 ^ 63

/-- The eleven exponent bits. -/
def exponentField (x : Binary64) : Nat := x.bits.toNat / 2 ^ 52 % 2 ^ 11

/-- The fifty-two fraction bits. -/
def fractionField (x : Binary64) : Nat := x.bits.toNat % 2 ^ 52

def isFinite (x : Binary64) : Bool := x.exponentField != 2047

def isNaN (x : Binary64) : Bool := x.exponentField == 2047 && x.fractionField != 0

/-- The absolute value of a finite double. -/
def magnitude (x : Binary64) : Magnitude :=
  if x.exponentField = 0 then ⟨x.fractionField, -1074, false⟩
  else ⟨2 ^ 52 + x.fractionField, x.exponentField - 1075, x.fractionField = 0 && x.exponentField > 1⟩

/-- The double with these fields; `fields` holds exponent and fraction in its lowest 63 bits. -/
def ofFields (negative : Bool) (fields : Nat) : Binary64 :=
  ⟨UInt64.ofNat (fields + if negative then 2 ^ 63 else 0)⟩

def infinity (negative : Bool) : Binary64 := ofFields negative (2047 * 2 ^ 52)

def nan : Binary64 := ofFields false (2047 * 2 ^ 52 + 2 ^ 51)

def zero (negative : Bool) : Binary64 := ofFields negative 0

/-- The integer nearest to `num / den`, a tie going to the even one. -/
def roundDiv (num den : Nat) : Nat :=
  let q := num / den
  match compare (2 * (num % den)) den with
  | .lt => q
  | .gt => q + 1
  | .eq => if q % 2 = 0 then q else q + 1

/-- The double nearest to `± num / den`, ties to even; magnitudes beyond the range give infinity. -/
def ofRatio (negative : Bool) (num den : Nat) : Binary64 :=
  if num = 0 then zero negative
  else
    let guess : Int := (num.log2 : Int) - den.log2 - 53
    -- `guess` is right or one too small: the significand has to stay below 2^53.
    let tooWide := num * 2 ^ (-(guess + 53)).toNat ≥ den * 2 ^ (guess + 53).toNat
    let exponent := max (if tooWide then guess + 1 else guess) (-1074)
    let significand := roundDiv (num * 2 ^ (-exponent).toNat) (den * 2 ^ exponent.toNat)
    -- A significand of 2^53 carries into the exponent by itself, and one below 2^52 is subnormal.
    let fields := if significand < 2 ^ 52 then significand else (exponent + 1074).toNat * 2 ^ 52 + significand
    if fields ≥ 2047 * 2 ^ 52 then infinity negative else ofFields negative fields

/-- The double with the same value as a single-precision number, given by its 32 bits. -/
def ofSingleBits (bits : Nat) : Binary64 :=
  let negative := bits ≥ 2 ^ 31
  let exponent := bits / 2 ^ 23 % 2 ^ 8
  let fraction := bits % 2 ^ 23
  if exponent = 255 then if fraction = 0 then infinity negative else nan
  else if exponent = 0 then ofRatio negative fraction (2 ^ 149)
  else ofFields negative ((exponent + 896) * 2 ^ 52 + fraction * 2 ^ 29)

end Binary64

end CilProbe
