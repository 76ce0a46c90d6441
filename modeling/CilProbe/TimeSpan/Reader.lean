import CilProbe.Binary64.Reader
import CilProbe.TimeSpan

/-!
# Reading time spans

A time span is written as hours, minutes and seconds with colons between them, with days and a point in front if there
are any, and with a sign in front of all. Only the seconds may have a fraction; it is taken in double precision and the
sum is rounded to microseconds, ties to even.
-/

namespace CilProbe.TimeSpan

/-- The integer nearest to `num / den`, a tie going to the even one. -/
private def roundRatio (num : Int) (den : Nat) : Int :=
  let floor := num.fdiv den
  match compare (2 * (num - floor * den)) den with
  | .lt => floor
  | .gt => floor + 1
  | .eq => if floor % 2 = 0 then floor else floor + 1

/-- Splits at each colon. -/
private def splitColons (cs : List Char) : List (List Char) :=
  match cs with
  | [] => [[]]
  | ':' :: rest => [] :: splitColons rest
  | c :: rest =>
    match splitColons rest with
    | [] => [[c]]
    | part :: parts => (c :: part) :: parts

/-- The microseconds of whole seconds and a double of further ones. -/
private def addSeconds (whole : Int) (seconds : Binary64) : Option Int :=
  if seconds.isFinite then
    let (intPart, num, den) := seconds.split
    let sign : Int := if seconds.isNegative then -1 else 1
    -- The fraction of a second, in microseconds, is itself a double.
    let (more, moreNum, moreDen) := (Binary64.ofRatio false (num * 1000000) den).split
    let micros := (whole + sign * intPart) * 1000000 + sign * more
    some (roundRatio (micros * moreDen + sign * moreNum) moreDen)
  else none

/-- The days and the time behind them. The days end with a point that stands in front of the first colon. -/
private def splitDays (value : List Char) : Option (Int × List Char) :=
  if (value.takeWhile (· != ':')).contains '.' then
    (Text.decimalInteger? (String.ofList (value.takeWhile (· != '.')))).map
      fun days => (days, (value.dropWhile (· != '.')).drop 1)
  else some (0, value)

/-- The time span of some days and a time. -/
private def ofTime? (days : Int) (time : List Char) : Option TimeSpan :=
  match splitColons time with
  | [hours, minutes, seconds] => do
    let hours ← Text.decimalInteger? (String.ofList hours)
    let minutes ← Text.decimalInteger? (String.ofList minutes)
    let seconds ← Binary64.ofText? (String.ofList seconds)
    ofMicroseconds? (← addSeconds (days * 86400 + hours * 3600 + minutes * 60) seconds)
  | _ => none

/-- The time span that a text writes. -/
def ofText? (s : String) : Option TimeSpan := do
  let text := (Text.strip s).toList
  let (days, time) ← splitDays (text.dropWhile (· == '-'))
  let span ← ofTime? days time
  if text.head? = some '-' then ofMicroseconds? (-span.microseconds) else return span

/-! ### Bounds -/

/-- A time span whose days stay within the bounds. -/
def Bounded (t : TimeSpan) : Prop := -maxDays ≤ t.days ∧ t.days ≤ maxDays

instance (t : TimeSpan) : Decidable t.Bounded := inferInstanceAs (Decidable (_ ∧ _))

theorem ofMicroseconds?_eq_some_iff {n : Int} {t : TimeSpan} :
    ofMicroseconds? n = some t ↔ t = ⟨n⟩ ∧ t.Bounded := by
  unfold ofMicroseconds?
  dsimp only
  split
  · next hn =>
    constructor
    · intro h
      cases h
      exact ⟨rfl, hn⟩
    · rintro ⟨rfl, -⟩
      rfl
  · next hn =>
    constructor
    · exact nofun
    · rintro ⟨rfl, hn'⟩
      exact absurd hn' hn

private theorem bounded_of_ofTime? {days : Int} {time : List Char} {t : TimeSpan} (h : ofTime? days time = some t) :
    t.Bounded := by
  unfold ofTime? at h
  split at h
  · simp only [Option.bind_eq_bind, Option.bind_eq_some_iff] at h
    obtain ⟨hours, -, minutes, -, seconds, -, n, -, h⟩ := h
    exact (ofMicroseconds?_eq_some_iff.1 h).2
  · contradiction

/-- Whatever is read is bounded. -/
theorem bounded_of_ofText? {s : String} {t : TimeSpan} (h : ofText? s = some t) : t.Bounded := by
  unfold ofText? at h
  simp only [Option.bind_eq_bind, Option.bind_eq_some_iff] at h
  obtain ⟨⟨days, time⟩, -, span, hspan, h⟩ := h
  split at h
  · exact (ofMicroseconds?_eq_some_iff.1 h).2
  · cases h
    exact bounded_of_ofTime? hspan

/-! ### Time spans of whole seconds -/

private theorem roundRatio_mul (n : Int) {den : Nat} (hden : 0 < den) : roundRatio (n * den) den = n := by
  have hfloor : (n * den).fdiv den = n := Int.mul_fdiv_cancel n (by omega)
  unfold roundRatio
  dsimp only
  rw [hfloor, Int.sub_self, Int.mul_zero]
  split
  · rfl
  · next hcompare =>
    rw [Int.compare_eq_gt] at hcompare
    omega
  · next hcompare =>
    rw [Int.compare_eq_eq] at hcompare
    omega

private theorem splitColons_of_notMem {cs : List Char} (h : ':' ∉ cs) : splitColons cs = [cs] := by
  induction cs with
  | nil => rfl
  | cons c cs ih =>
    simp only [List.mem_cons, not_or] at h
    rw [splitColons, ih h.2]
    exact fun hc => h.1 hc.symm

private theorem splitColons_append {cs : List Char} (h : ':' ∉ cs) (rest : List Char) :
    splitColons (cs ++ ':' :: rest) = cs :: splitColons rest := by
  induction cs with
  | nil => rfl
  | cons c cs ih =>
    simp only [List.mem_cons, not_or] at h
    rw [List.cons_append, splitColons, ih h.2]
    exact fun hc => h.1 hc.symm

private theorem split_zero : (Binary64.zero false).split = (0, 0, 2 ^ 1074) := by decide +kernel

/-- Without a fraction the seconds are added as they are. -/
private theorem addSeconds_whole (whole : Int) {n : Nat} (hn : n < 60) :
    addSeconds whole (Binary64.ofLiteral false ⟨n, 0⟩) = some ((whole + n) * 1000000) := by
  obtain ⟨hfinite, hsign, hint, hnum⟩ := Binary64.split_ofLiteral_of_lt n hn
  rcases hsplit : (Binary64.ofLiteral false ⟨n, 0⟩).split with ⟨int, num, den⟩
  rw [hsplit] at hint hnum
  have hzero : Binary64.ofRatio false 0 den = Binary64.zero false := if_pos rfl
  have hround := roundRatio_mul ((whole + n) * 1000000) (Nat.two_pow_pos 1074)
  unfold addSeconds
  rw [if_pos hfinite, hsplit, hsign]
  cases hint
  cases hnum
  dsimp only
  rw [Nat.zero_mul, hzero, split_zero]
  simp only [Bool.false_eq_true, if_false, Int.one_mul, Int.natCast_zero, Int.mul_zero, Int.add_zero]
  rw [hround]

/-- The characters that write days, if there are any, in front of a time. -/
inductive IsDays : Nat → List Char → Prop where
  | none : IsDays 0 []
  | some {d : Nat} {digits : List Char} (hdigits : Text.IsNumeral 10 digits d)
      (hlength : digits.length ≤ Text.maxIntegerDigits) : IsDays d (digits ++ ['.'])

/-- The characters that write a time of hours, minutes and seconds. -/
inductive IsTime (h m n : Nat) : List Char → Prop where
  | mk {hours minutes seconds : List Char} (hhours : Text.IsNumeral 10 hours h)
      (hminutes : Text.IsNumeral 10 minutes m) (hseconds : Text.IsNumeral 10 seconds n)
      (hlength : hours.length ≤ Text.maxIntegerDigits ∧ minutes.length ≤ Text.maxIntegerDigits) (hlt : n < 60) :
      IsTime h m n (hours ++ ':' :: (minutes ++ ':' :: seconds))

section

variable {d h m n : Nat} {day time digits rest : List Char}

private theorem decimalInteger?_ofList (hdigits : Text.IsNumeral 10 digits n)
    (hlength : digits.length ≤ Text.maxIntegerDigits) :
    Text.decimalInteger? (String.ofList digits) = some (n : Int) := by
  have hread := Text.decimalInteger?_eq (.none (Int.natCast_nonneg n)) hdigits hlength
  rwa [List.nil_append] at hread

private theorem splitDays_append (hday : IsDays d day) (htime : IsTime h m n time) :
    splitDays (day ++ time) = some ((d : Int), time) := by
  cases htime with | @mk hours minutes seconds hhours _ _ _ _ =>
  have hcolon : ':' ∉ hours := hhours.notMem (by decide)
  have hfront (before : List Char) (hbefore : ':' ∉ before) :
      (before ++ ':' :: (minutes ++ ':' :: seconds)).takeWhile (· != ':') = before := by
    apply Text.takeWhile_append_eq
    · intro c hc
      have hne : c ≠ ':' := fun h => hbefore (h ▸ hc)
      simpa using hne
    · rintro c ⟨⟩
      rfl
  unfold splitDays
  cases hday with
  | none =>
    have hpoint : '.' ∉ hours := hhours.notMem (by decide)
    rw [List.nil_append, hfront hours hcolon, if_neg (by simpa using hpoint)]
    rfl
  | @some d digits hdigits hlength =>
    have hcolon' : ':' ∉ digits := hdigits.notMem (by decide)
    have hbefore := hfront (digits ++ '.' :: hours) (by simp [hcolon, hcolon'])
    have hpoint : ∀ c ∈ digits, (c != '.') = true := by
      intro c hc
      have hne : c ≠ '.' := fun h => hdigits.notMem (by decide) (h ▸ hc)
      simpa using hne
    have hdot : ∀ c, ('.' :: (hours ++ ':' :: (minutes ++ ':' :: seconds))).head? = some c → (c != '.') = false := by
      rintro c ⟨⟩
      rfl
    have htake := Text.takeWhile_append_eq hpoint hdot
    have hdrop := Text.dropWhile_append_eq hpoint hdot
    simp only [List.append_assoc, List.cons_append, List.nil_append] at hbefore ⊢
    rw [hbefore, if_pos (by simp), htake, hdrop, decimalInteger?_ofList hdigits hlength]
    rfl

private theorem ofTime?_eq (htime : IsTime h m n time) (days : Int) :
    ofTime? days time = ofMicroseconds? ((days * 86400 + h * 3600 + m * 60 + n) * 1000000) := by
  obtain ⟨hhours, hminutes, hseconds, ⟨hlength, hlength'⟩, hlt⟩ := htime
  unfold ofTime?
  rw [splitColons_append (hhours.notMem (by decide)), splitColons_append (hminutes.notMem (by decide)),
    splitColons_of_notMem (hseconds.notMem (by decide))]
  dsimp only
  rw [decimalInteger?_ofList hhours hlength, decimalInteger?_ofList hminutes hlength',
    Binary64.ofText?_of_isNumeral hseconds]
  simp only [Option.bind_eq_bind, Option.bind_some, addSeconds_whole _ hlt]

private theorem IsDays.visible (hday : IsDays d day) : ∀ c ∈ day, Text.Visible c := by
  cases hday with
  | none => exact nofun
  | some hdigits => exact List.forall_mem_append.2 ⟨hdigits.visible, List.forall_mem_singleton.2 (by decide)⟩

private theorem IsTime.visible (htime : IsTime h m n time) : ∀ c ∈ time, Text.Visible c := by
  cases htime with
  | mk hhours hminutes hseconds =>
    have hcolon : Text.Visible ':' := by decide
    exact List.forall_mem_append.2 ⟨hhours.visible, List.forall_mem_cons.2 ⟨hcolon,
      List.forall_mem_append.2 ⟨hminutes.visible, List.forall_mem_cons.2 ⟨hcolon, hseconds.visible⟩⟩⟩⟩

/-- Days and a time begin with a digit. -/
private theorem exists_digit_cons (hday : IsDays d day) (htime : IsTime h m n time) :
    ∃ c rest, day ++ time = c :: rest ∧ c.isDigit = true := by
  have hdigit {cs : List Char} {k : Nat} (hcs : Text.IsNumeral 10 cs k) (rest : List Char) :
      ∃ c rest', cs ++ rest = c :: rest' ∧ c.isDigit = true := by
    obtain ⟨c, cs', rfl⟩ := List.exists_cons_of_ne_nil hcs.ne_nil
    exact ⟨c, cs' ++ rest, rfl, hcs.isDigit_of_mem c (by simp)⟩
  cases hday with
  | none =>
    cases htime with
    | mk hhours => exact hdigit hhours _
  | some hdigits =>
    rw [List.append_assoc]
    exact hdigit hdigits _

/-- A time span is read as what its parts write. -/
theorem ofText?_eq {sign : List Char} (hsign : sign = [] ∨ sign = ['-']) (hday : IsDays d day)
    (htime : IsTime h m n time) :
    ofText? (String.ofList (sign ++ (day ++ time))) =
      (ofMicroseconds? (((d : Int) * 86400 + h * 3600 + m * 60 + n) * 1000000)).bind fun span =>
        if sign = ['-'] then ofMicroseconds? (-span.microseconds) else some span := by
  obtain ⟨first, rest, hfirst, hdigit⟩ := exists_digit_cons hday htime
  have hminus : first ≠ '-' := by
    rintro rfl
    contradiction
  have hvisible : ∀ c ∈ sign ++ (day ++ time), Text.Visible c := by
    have hvalue := List.forall_mem_append.2 ⟨hday.visible, htime.visible⟩
    rcases hsign with rfl | rfl
    · exact hvalue
    · exact List.forall_mem_cons.2 ⟨by decide, hvalue⟩
  have hdrop : (sign ++ (day ++ time)).dropWhile (· == '-') = day ++ time := by
    apply Text.dropWhile_append_eq
    · rcases hsign with rfl | rfl <;> simp
    · rw [hfirst]
      rintro c ⟨⟩
      simpa using hminus
  have hhead : (sign ++ (day ++ time)).head? = some '-' ↔ sign = ['-'] := by
    rcases hsign with rfl | rfl
    · simp [hfirst, hminus]
    · simp
  unfold ofText?
  rw [(Text.trimmed_ofList hvisible).strip_eq, String.toList_ofList]
  dsimp only
  rw [hdrop, splitDays_append hday htime]
  simp only [Option.bind_eq_bind, Option.bind_some, ofTime?_eq htime, hhead]
  rfl

end

end CilProbe.TimeSpan
