import CilProbe.Bytes
import CilProbe.DateTime
import CilProbe.DateTime.Calendar

/-!
# Reading dates and times

A moment is written in one of the forms of ISO 8601, with separators or without: a date by month and day or by week, then
any one character, a time of one to three fields and a fraction, and an offset from universal time in the same form. The
text is read as UTF-8, and a zero byte stands for its end. What a time leaves over in front of an offset is not looked
at.
-/

namespace CilProbe.DateTime

private def isDigit (b : UInt8) : Bool := 48 ≤ b && b ≤ 57

/-- The number in the first `count` digits. -/
private def digits? (count : Nat) (text : Bytes) : Option (Nat × Bytes) :=
  let front := text.take count
  if front.length = count && front.all isDigit then
    some (front.foldl (fun n b => 10 * n + (b.toNat - 48)) 0, text.drop count)
  else none

/-- Whether a text ends here. -/
private def isEnd : Bytes → Bool
  | [] => true
  | b :: _ => b == 0

/-- A time with what is left over behind it. -/
private structure Clock where
  fields : List Nat
  microsecond : Nat
  rest : Bytes

/-- The digits of a fraction; those from the seventh on do not count. -/
private def fraction? (fields : List Nat) (text : Bytes) : Option Clock := do
  let count := min 6 text.length
  let (n, rest) ← digits? count text
  return ⟨fields, n * 10 ^ (6 - count), rest.dropWhile isDigit⟩

/-- At most `left` more fields, and a fraction behind them. Either all fields are separated by colons or none. -/
private def clock? (before : List Nat) : (left : Nat) → (separated : Option Bool) → Bytes → Option Clock
  | 0, _, text => fraction? before text
  | left + 1, separated, text => do
    let (field, rest) ← digits? 2 text
    let fields := before ++ [field]
    match rest with
    | [] | [_] => return ⟨fields, 0, rest⟩
    | c :: more =>
      let isSeparated := separated.getD (c == 58)
      if isSeparated && c == 58 then clock? fields left (some isSeparated) more
      else if c == 46 || c == 44 then fraction? fields more
      else if isSeparated then none
      else clock? fields left (some isSeparated) rest

private def Clock.field (c : Clock) (i : Nat) : Nat := c.fields.getD i 0

/-- The offset behind a sign. An offset of less than a second is none. -/
private def offset? (isNegative : Bool) (text : Bytes) : Option TimeSpan := do
  let clock ← clock? [] 3 none text
  guard (isEnd clock.rest)
  let seconds := clock.field 0 * 3600 + clock.field 1 * 60 + clock.field 2
  if seconds = 0 then return .zero
  let micros : Int := seconds * 1000000 + clock.microsecond
  guard (micros < TimeSpan.perDay)
  return ⟨if isNegative then -micros else micros⟩

/-- The time and the offset. -/
private def time? (text : Bytes) : Option (Clock × Option TimeSpan) := do
  let isZone (b : UInt8) : Bool := b == 43 || b == 45 || b == 90
  let clock ← clock? [] 3 none (text.takeWhile (!isZone ·))
  match text.dropWhile (!isZone ·) with
  | [] => if isEnd clock.rest then return (clock, none) else none
  | 90 :: rest => if isEnd rest then return (clock, some .zero) else none
  | sign :: rest => return (clock, some (← offset? (sign == 45) rest))

/-- Where a date of a week ends that is written without separators: its day is left out if an odd number of digits
would be left for the time. -/
private def compactWeekEnd (text : Bytes) : Nat :=
  let stop := 7 + ((text.drop 7).takeWhile isDigit).length
  if stop < 9 then stop else if stop % 2 = 0 then 7 else 8

/-- Where the date ends, by the form that its first characters announce. -/
private def dateEnd (text : Bytes) : Nat :=
  let at_ (i : Nat) : UInt8 := text.getD i 0
  if text.length = 7 then 7
  else if at_ 4 == 45 then
    if at_ 5 == 87 then if at_ 8 == 45 && !isDigit (at_ 10) then 10 else 8
    else 10
  else if at_ 4 == 87 then compactWeekEnd text
  else 8

/-- A date that ends at a place. -/
private def date? (stop : Nat) (text : Bytes) : Option (Nat × Nat × Nat) := do
  let (year, rest) ← digits? 4 text
  let isSeparated := rest.head? == some 45
  let separator? (bs : Bytes) : Option Bytes :=
    if isSeparated then if bs.head? == some 45 then some (bs.drop 1) else none else some bs
  match ← separator? rest with
  | 87 :: rest =>
    let (week, rest) ← digits? 2 rest
    if text.length - rest.length < stop then
      let (day, _) ← digits? 1 (← separator? rest)
      Calendar.ofWeek? year week day
    else Calendar.ofWeek? year week 1
  | rest =>
    let (month, rest) ← digits? 2 rest
    let (day, _) ← digits? 2 (← separator? rest)
    return (year, month, day)

/-- The text behind the character that stands first. -/
private def afterCharacter : Bytes → Bytes
  | [] => []
  | b :: rest => if b < 0x80 then rest else if b < 0xE0 then rest.drop 1 else if b < 0xF0 then rest.drop 2 else rest.drop 3

/-- The moment that a text writes. -/
def ofText? (s : String) : Option DateTime := do
  let text := s.toUTF8.toList
  let stop := dateEnd text
  let (year, month, day) ← date? stop text
  guard (Calendar.isDate year month day)
  if text.length ≤ stop then return { year, month, day }
  let (clock, offset) ← time? (afterCharacter (text.drop stop))
  guard (clock.field 0 < 24 ∧ clock.field 1 < 60 ∧ clock.field 2 < 60)
  return {
    year, month, day, offset
    hour := clock.field 0, minute := clock.field 1, second := clock.field 2, microsecond := clock.microsecond }

end CilProbe.DateTime
