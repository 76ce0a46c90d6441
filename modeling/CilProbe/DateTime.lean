import CilProbe.Decimal.Notation
import CilProbe.TimeSpan

/-!
# Dates and times

A point of the Gregorian calendar in the years 1 to 9999, to the microsecond, with or without an offset from universal
time.
-/

namespace CilProbe

structure DateTime where
  year : Nat
  month : Nat
  day : Nat
  hour : Nat := 0
  minute : Nat := 0
  second : Nat := 0
  microsecond : Nat := 0
  /-- The offset from universal time, if one is given. -/
  offset : Option TimeSpan := none
  deriving DecidableEq, Repr

namespace DateTime

/-- The first moment of the year 1. -/
def first : DateTime := { year := 1, month := 1, day := 1 }

/-- A number in decimal digits, with zeros in front up to a width. -/
private def digits (width n : Nat) : String :=
  let text := toString n
  Decimal.zeros (width - text.length) ++ text

private def clock (hour minute : Nat) : String := digits 2 hour ++ ":" ++ digits 2 minute

/-- An offset with its sign, and with seconds and microseconds only where they are not zero. -/
private def offsetText (offset : TimeSpan) : String :=
  let n := offset.microseconds.natAbs
  let seconds := n / 1000000
  (if offset.microseconds < 0 then "-" else "+") ++ clock (seconds / 3600) (seconds / 60 % 60) ++
    (if seconds % 60 = 0 ∧ n % 1000000 = 0 then "" else ":" ++ digits 2 (seconds % 60)) ++
    (if n % 1000000 = 0 then "" else "." ++ digits 6 (n % 1000000))

/-- The ISO 8601 form. -/
def isoText (t : DateTime) : String :=
  digits 4 t.year ++ "-" ++ digits 2 t.month ++ "-" ++ digits 2 t.day ++ "T" ++ clock t.hour t.minute ++ ":" ++
    digits 2 t.second ++ (if t.microsecond = 0 then "" else "." ++ digits 6 t.microsecond) ++
    (t.offset.map offsetText).getD ""

/-- The fields in order, without a last part of zero. -/
def toText (t : DateTime) : String :=
  let fields := [t.year, t.month, t.day, t.hour, t.minute] ++
    (if t.second = 0 ∧ t.microsecond = 0 then [] else [t.second]) ++ if t.microsecond = 0 then [] else [t.microsecond]
  let zone := match t.offset with
    | none => []
    | some offset => ["tzinfo=datetime.timezone" ++ if offset = .zero then ".utc" else "(" ++ offset.toText ++ ")"]
  "datetime.datetime(" ++ ", ".intercalate (fields.map toString ++ zone) ++ ")"

end DateTime

end CilProbe
