/-!
# Time spans

A time span is a number of microseconds. It has a normal form of days, seconds within a day and microseconds within a
second, of which only the days may be negative.
-/

namespace CilProbe

structure TimeSpan where
  microseconds : Int
  deriving DecidableEq, Repr

namespace TimeSpan

/-- The number of microseconds in a day. -/
def perDay : Int := 86400000000

def zero : TimeSpan := ⟨0⟩

/-- The days of the normal form. -/
def days (t : TimeSpan) : Int := t.microseconds.fdiv perDay

/-- The seconds of the normal form, less than a day. -/
def secondsInDay (t : TimeSpan) : Int := (t.microseconds.fmod perDay).fdiv 1000000

/-- The microseconds of the normal form, less than a second. -/
def microsecondsInSecond (t : TimeSpan) : Int := t.microseconds.fmod 1000000

/-- The number of ticks, of which ten make up a microsecond. -/
def ticks (t : TimeSpan) : Int := t.microseconds * 10

/-- The most days that a time span has, in either direction. -/
def maxDays : Int := 999999999

/-- The time span of a number of microseconds, unless it has too many days. -/
def ofMicroseconds? (n : Int) : Option TimeSpan :=
  let t : TimeSpan := ⟨n⟩
  if -maxDays ≤ t.days ∧ t.days ≤ maxDays then some t else none

/-- The ticks are those of the normal form. -/
theorem ticks_eq (t : TimeSpan) :
    t.ticks = (t.days * 86400 + t.secondsInDay) * 10000000 + t.microsecondsInSecond * 10 := by
  unfold ticks days secondsInDay microsecondsInSecond perDay
  rw [Int.fdiv_eq_ediv_of_nonneg _ (by decide), Int.fmod_eq_emod_of_nonneg _ (by decide),
    Int.fdiv_eq_ediv_of_nonneg _ (by decide), Int.fmod_eq_emod_of_nonneg _ (by decide)]
  omega

/-- The parts of the normal form that are not zero, by name. -/
def toText (t : TimeSpan) : String :=
  let parts := [("days", t.days), ("seconds", t.secondsInDay), ("microseconds", t.microsecondsInSecond)]
  let named := (parts.filter (·.2 != 0)).map fun (name, n) => s!"{name}={n}"
  "datetime.timedelta(" ++ (if named.isEmpty then "0" else ", ".intercalate named) ++ ")"

end TimeSpan

end CilProbe
