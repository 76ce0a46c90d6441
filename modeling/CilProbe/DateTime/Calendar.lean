/-!
# The Gregorian calendar

Lengths of months and years, and the weeks of a year: they begin on Mondays, and the first one is that of the first
Thursday.
-/

namespace CilProbe.Calendar

def isLeap (year : Nat) : Bool := year % 4 = 0 && (year % 100 ≠ 0 || year % 400 = 0)

/-- The lengths of the months. -/
def monthLengths (year : Nat) : List Nat := [31, if isLeap year then 29 else 28, 31, 30, 31, 30, 31, 31, 30, 31, 30, 31]

def daysInYear (year : Nat) : Nat := if isLeap year then 366 else 365

/-- The days of all years from the year 1 up to this one. -/
def daysBefore (year : Nat) : Nat := (year - 1) * 365 + (year - 1) / 4 - (year - 1) / 100 + (year - 1) / 400

/-- The weekday of the first of January, counted from Monday as zero. -/
def firstWeekday (year : Nat) : Nat := daysBefore year % 7

/-- Whether year, month and day are a date of the years 1 to 9999. -/
def isDate (year month day : Nat) : Bool :=
  1 ≤ year && year ≤ 9999 && 1 ≤ month && 1 ≤ day && day ≤ ((monthLengths year)[month - 1]?.getD 0)

/-- The month and the day of the `n`-th day behind the first of month `month`, given the lengths of the months from
there on. -/
private def monthAndDay (month : Nat) : List Nat → (n : Nat) → Nat × Nat
  | [], n => (month, n + 1)
  | length :: rest, n => if n < length then (month, n + 1) else monthAndDay (month + 1) rest (n - length)

/-- Year, month and day of the `n`-th day behind the first of January, which may lie in a neighbouring year. -/
def ofDayOfYear (year : Nat) (n : Int) : Nat × Nat × Nat :=
  let (year, n) :=
    if n < 0 then (year - 1, n + daysInYear (year - 1))
    else if n < daysInYear year then (year, n)
    else (year + 1, n - daysInYear year)
  (year, monthAndDay 1 (monthLengths year) n.toNat)

/-- The number of weeks in a year. -/
def weeksInYear (year : Nat) : Nat :=
  if firstWeekday year = 3 || firstWeekday year = 2 && isLeap year then 53 else 52

/-- The date of a day in a week of a year. -/
def ofWeek? (year week day : Nat) : Option (Nat × Nat × Nat) :=
  if 1 ≤ year ∧ 1 ≤ week ∧ week ≤ weeksInYear year ∧ 1 ≤ day ∧ day ≤ 7 then
    let weekday := firstWeekday year
    let monday : Int := if weekday ≤ 3 then -weekday else 7 - weekday
    some (ofDayOfYear year (monday + (week - 1) * 7 + (day - 1)))
  else none

end CilProbe.Calendar
