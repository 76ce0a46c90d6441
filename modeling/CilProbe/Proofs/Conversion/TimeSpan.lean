import CilProbe.Host.Reflection
import CilProbe.Proofs.Conversion.Integer

/-!
# Time spans that are converted

A time span of whole seconds is written with days in front if there are any, and with hours, minutes and seconds of two
digits each (`TimeSpan.written`).  It is read as what was written (`TimeSpan.ofText?_written`), and the runtime gets
its ticks, although the normal form of a negative one has negative days and other parts that are not
(`Synthesis.convert_timeSpans`).
-/

namespace CilProbe

namespace TimeSpan

def twoDigits (n : Nat) : List Char := [Nat.digitChar (n / 10), Nat.digitChar (n % 10)]

/-- The characters of days, with a point behind them, unless there are none. -/
def dayPart (days : Nat) : List Char := if days = 0 then [] else Nat.toDigits 10 days ++ ['.']

/-- The characters of a time within a day. -/
def timePart (seconds : Nat) : List Char :=
  twoDigits (seconds / 3600) ++ ':' :: (twoDigits (seconds / 60 % 60) ++ ':' :: twoDigits (seconds % 60))

/-- A time span of whole seconds as the runtime writes it. -/
def written (seconds : Int) : String :=
  let n := seconds.natAbs
  String.ofList ((if seconds < 0 then ['-'] else []) ++ (dayPart (n / 86400) ++ timePart (n % 86400)))

example : written (-93784) = "-1.02:03:04" := by decide

/-- The time span of whole seconds. -/
def ofSeconds (seconds : Int) : TimeSpan := ⟨seconds * 1000000⟩

variable {seconds : Int}

theorem isNumeral_twoDigits {n : Nat} (hn : n < 100) : Text.IsNumeral 10 (twoDigits n) n := by
  have hdigit : ∀ d < 10, Text.digitValue? (Nat.digitChar d) = some d := by decide
  have hfirst : Text.IsNumeral 10 [Nat.digitChar (n / 10)] (n / 10) := .digit (hdigit _ (by omega)) (by omega)
  have hboth := hfirst.concat (hdigit (n % 10) (by omega)) (by omega)
  rwa [Nat.div_add_mod] at hboth

theorem isDays_dayPart {days : Nat} (hdays : days < 10 ^ Text.maxIntegerDigits) : IsDays days (dayPart days) := by
  unfold dayPart
  split
  · next hzero =>
    rw [hzero]
    exact .none
  · have hlength := (Nat.length_toDigits_le_iff (by decide : 1 < 10) (by decide : 0 < Text.maxIntegerDigits)).2 hdays
    exact .some (Text.isNumeral_toDigits (by decide) (by decide) days) hlength

theorem isTime_timePart {n : Nat} (hn : n < 86400) : IsTime (n / 3600) (n / 60 % 60) (n % 60) (timePart n) := by
  have hlength : 2 ≤ Text.maxIntegerDigits := by decide
  exact .mk (isNumeral_twoDigits (by omega)) (isNumeral_twoDigits (by omega)) (isNumeral_twoDigits (by omega))
    ⟨hlength, hlength⟩ (by omega)

theorem bounded_ofSeconds_iff :
    (ofSeconds seconds).Bounded ↔ -maxDays * 86400 ≤ seconds ∧ seconds < (maxDays + 1) * 86400 := by
  unfold Bounded ofSeconds days perDay maxDays
  rw [Int.fdiv_eq_ediv_of_nonneg _ (by decide)]
  dsimp only
  omega

/-- Time spans of whole seconds are read as they are written. -/
theorem ofText?_written (h : (ofSeconds seconds).Bounded) : ofText? (written seconds) = some (ofSeconds seconds) := by
  have hseconds := bounded_ofSeconds_iff.1 h
  unfold maxDays at hseconds
  have hdays : seconds.natAbs / 86400 < 10 ^ Text.maxIntegerDigits :=
    calc seconds.natAbs / 86400 < 10 ^ 10 := by omega
      _ ≤ 10 ^ Text.maxIntegerDigits := Nat.pow_le_pow_right (by decide) (by decide)
  have hread {sign : List Char} (hsign : sign = [] ∨ sign = ['-']) :=
    ofText?_eq hsign (isDays_dayPart hdays) (isTime_timePart (Nat.mod_lt seconds.natAbs (by decide : 0 < 86400)))
  have hsum : ((seconds.natAbs / 86400 : Nat) : Int) * 86400 + (seconds.natAbs % 86400 / 3600 : Nat) * 3600 +
      (seconds.natAbs % 86400 / 60 % 60 : Nat) * 60 + (seconds.natAbs % 86400 % 60 : Nat) = seconds.natAbs := by
    omega
  rw [hsum] at hread
  have hspan : ofMicroseconds? (seconds * 1000000) = some (ofSeconds seconds) := ofMicroseconds?_eq_some_iff.2 ⟨rfl, h⟩
  unfold written
  dsimp only
  by_cases hneg : seconds < 0
  · have hpos : ofMicroseconds? ((seconds.natAbs : Int) * 1000000) = some (ofSeconds seconds.natAbs) :=
      ofMicroseconds?_eq_some_iff.2 ⟨rfl, bounded_ofSeconds_iff.2 (by unfold maxDays; omega)⟩
    have hminus : -((seconds.natAbs : Int) * 1000000) = seconds * 1000000 := by omega
    rw [if_pos hneg, hread (.inr rfl), hpos, Option.bind_some, if_pos rfl, ofSeconds, hminus, hspan]
  · have habs : (seconds.natAbs : Int) = seconds := by omega
    rw [if_neg hneg, hread (.inl rfl), habs, hspan, Option.bind_some, if_neg (by simp)]

end TimeSpan

theorem Conversion.timeSpan_written {seconds : Int} (h : (TimeSpan.ofSeconds seconds).Bounded) :
    timeSpan (TimeSpan.written seconds) = .ok (.timeSpan (TimeSpan.ofSeconds seconds)) := by
  rw [timeSpan_eq, TimeSpan.ofText?_written h]
  rfl

namespace Synthesis

variable {τ μ σ : Type} {h : Host τ μ σ} {p : Parameter τ} {seconds : Int} {s s' : Session σ}

theorem run_convert_timeSpan (htype : p.typeName = "System.TimeSpan") (hnamed : ReadByName h p s s') (text : String) :
    (convert h p text).run s = (told p text (Conversion.timeSpan text), s') := by
  have hread : Conversion.reader? p.typeName = some Conversion.timeSpan := by
    rw [htype]
    rfl
  exact run_convert_of_reader hread hnamed text

/-- The time spans of whole seconds that the runtime has, from their text to their ticks.  The text that writes one is
converted to it, and in a call the runtime gets its ticks, which are those of its normal form. -/
theorem convert_timeSpans (htype : p.typeName = "System.TimeSpan") (hnamed : ReadByName h p s s')
    (hlow : -2 ^ 63 ≤ seconds * 10000000) (hhigh : seconds * 10000000 < 2 ^ 63) :
    (convert h p (TimeSpan.written seconds)).run s = (.ok (.timeSpan (TimeSpan.ofSeconds seconds)), s') ∧
    ((TimeSpan.ofSeconds seconds).days * 86400 + (TimeSpan.ofSeconds seconds).secondsInDay) * 10000000 +
      (TimeSpan.ofSeconds seconds).microsecondsInSecond * 10 = seconds * 10000000 ∧
    ∀ (r : Reflection) (type : ReflectedType), r.marshal type (.timeSpan (TimeSpan.ofSeconds seconds)) =
      .call "TimeSpan.FromTicks" [.int (seconds * 10000000)] := by
  have hbounded : (TimeSpan.ofSeconds seconds).Bounded :=
    TimeSpan.bounded_ofSeconds_iff.2 (by unfold TimeSpan.maxDays; omega)
  have hticks : (TimeSpan.ofSeconds seconds).ticks = seconds * 10000000 := by
    unfold TimeSpan.ticks TimeSpan.ofSeconds
    dsimp only
    omega
  refine ⟨?_, ?_, ?_⟩
  · rw [run_convert_timeSpan htype hnamed, Conversion.timeSpan_written hbounded]
    rfl
  · rw [← TimeSpan.ticks_eq, hticks]
  · intro r type
    rw [← hticks]
    rfl

private def spanHost : Host Unit Unit Unit := (TypeGraph.single "System.TimeSpan" .value []).host (.fault default)

private def spanParameter : Parameter Unit := singleParameter "delay" "System.TimeSpan"

theorem convert_timeSpans_negative :
    (convert spanHost spanParameter (TimeSpan.written (-93784))).run (Session.start ()) =
      (.ok (.timeSpan (TimeSpan.ofSeconds (-93784))), Session.start ()) :=
  (@convert_timeSpans _ _ _ spanHost spanParameter (-93784) (Session.start ()) _ rfl ⟨.value, rfl, nofun, nofun⟩
    (by decide) (by decide)).1

end Synthesis

end CilProbe
