import CilProbe.Power
import CilProbe.Text.Blank
import CilProbe.Text.Digit

/-!
# Numerals

Numbers may be written with the decimal digits of any script, with blanks around them and with single underscores
between digits.
-/

namespace CilProbe.Text

/-- The most digits that a decimal integer may have. -/
def maxIntegerDigits : Nat := 4300

/-- A character of a numeral in ASCII: digits of any script become ASCII digits, blanks become spaces. -/
private def asciiChar (c : Char) : Char :=
  if c.toNat < 127 then c
  else if isBlank c then ' '
  else ((digit? c).map fun d => Char.ofNat (48 + d)).getD '?'

/-- The blanks of ASCII. The information separators are not among them. -/
private def isSpace (c : Char) : Bool := c == ' ' || (9 ≤ c.toNat && c.toNat ≤ 13)

private def trim (cs : List Char) : List Char := ((cs.dropWhile isSpace).reverse.dropWhile isSpace).reverse

/-- A numeral in ASCII, without the blanks around it. -/
def asciiNumeral (s : String) : List Char := trim (s.toList.map asciiChar)

/-- The sign in front of a numeral and what follows it. -/
def splitSign : List Char → Bool × List Char
  | '-' :: cs => (true, cs)
  | '+' :: cs => (false, cs)
  | cs => (false, cs)

/-- The value of a digit in bases up to sixteen. -/
def digitValue? (c : Char) : Option Nat :=
  if '0' ≤ c ∧ c ≤ '9' then some (c.toNat - 48)
  else if 'a' ≤ c ∧ c ≤ 'f' then some (c.toNat - 87)
  else if 'A' ≤ c ∧ c ≤ 'F' then some (c.toNat - 55)
  else none

/-- The value of a digit of this base. -/
private def digitBelow? (base : Nat) (c : Char) : Option Nat := (digitValue? c).filter (· < base)

/-- The digits of a numeral with single underscores between them. -/
private def digits? (base : Nat) : List Char → Option (List Nat)
  | [] => none
  | [c] => return [← digitBelow? base c]
  | c :: '_' :: rest | c :: rest => return (← digitBelow? base c) :: (← digits? base rest)

/-- The number with these digits, the most significant first. -/
def ofDigits (base : Nat) (digits : List Nat) : Nat := digits.foldl (fun n d => base * n + d) 0

/-- The digits behind the mark of base sixteen, which may be left out. An underscore may follow the mark. -/
private def afterHexMark : List Char → List Char
  | '0' :: 'x' :: '_' :: cs | '0' :: 'X' :: '_' :: cs | '0' :: 'x' :: cs | '0' :: 'X' :: cs | cs => cs

private def withSign (negative : Bool) (n : Nat) : Int := if negative then -n else n

/-- The integer that a text writes in base ten. -/
def decimalInteger? (s : String) : Option Int := do
  let (negative, cs) := splitSign (asciiNumeral s)
  let digits ← digits? 10 cs
  guard (digits.length ≤ maxIntegerDigits)
  return withSign negative (ofDigits 10 digits)

/-- The integer that a text writes in base sixteen. -/
def hexInteger? (s : String) : Option Int := do
  let (negative, cs) := splitSign (asciiNumeral s)
  return withSign negative (ofDigits 16 (← digits? 16 (afterHexMark cs)))

/-- A number without a sign: `coefficient · 10^exponent`, with the number of digits that were written. -/
structure Literal where
  coefficient : Nat
  exponent : Int
  deriving DecidableEq, Repr

/-- The exponent behind the digits of a literal. -/
private def exponent? : List Char → Option Int
  | [] => some 0
  | mark :: cs =>
    let (negative, digits) := splitSign cs
    if (mark = 'e' ∨ mark = 'E') ∧ digits ≠ [] ∧ digits.all Char.isDigit then
      some (withSign negative (ofDigits 10 (digits.map fun c => c.toNat - 48)))
    else none

/-- The digits behind a point, if there is one, and what follows them. -/
private def splitFraction : List Char → List Char × List Char
  | '.' :: cs => (cs.takeWhile Char.isDigit, cs.dropWhile Char.isDigit)
  | cs => ([], cs)

/-- A literal in ASCII: digits with at most one point among them, and an exponent. -/
def literal? (cs : List Char) : Option Literal := do
  let whole := cs.takeWhile Char.isDigit
  let (fraction, rest) := splitFraction (cs.drop whole.length)
  guard (whole ++ fraction ≠ [])
  let exponent ← exponent? rest
  return ⟨ofDigits 10 ((whole ++ fraction).map fun c => c.toNat - 48), exponent - fraction.length⟩

/-! ### Integers that are read -/

/-- The digits that write a number in a base. -/
inductive IsNumeral (base : Nat) : List Char → Nat → Prop where
  | digit {c : Char} {d : Nat} (hc : digitValue? c = some d) (hd : d < base) : IsNumeral base [c] d
  | concat {cs : List Char} {n : Nat} {c : Char} {d : Nat} (hcs : IsNumeral base cs n) (hc : digitValue? c = some d)
      (hd : d < base) : IsNumeral base (cs ++ [c]) (base * n + d)

/-- The signs of an integer; zero may have each of them. -/
inductive IsSign (v : Int) : List Char → Prop where
  | none (hv : 0 ≤ v) : IsSign v []
  | plus (hv : 0 ≤ v) : IsSign v ['+']
  | minus (hv : v ≤ 0) : IsSign v ['-']

variable {base n d : Nat} {c : Char} {cs sign : List Char} {v : Int}

theorem cases_of_digitValue? (hc : digitValue? c = some d) :
    (48 ≤ c.toNat ∧ c.toNat ≤ 57 ∧ d = c.toNat - 48) ∨ (97 ≤ c.toNat ∧ c.toNat ≤ 102 ∧ d = c.toNat - 87) ∨
      (65 ≤ c.toNat ∧ c.toNat ≤ 70 ∧ d = c.toNat - 55) := by
  unfold digitValue? at hc
  repeat' split at hc
  all_goals cases hc
  · next hrange => exact .inl ⟨hrange.1, hrange.2, rfl⟩
  · next hrange => exact .inr (.inl ⟨hrange.1, hrange.2, rfl⟩)
  · next hrange => exact .inr (.inr ⟨hrange.1, hrange.2, rfl⟩)

private theorem digitBelow?_eq (hc : digitValue? c = some d) (hd : d < base) : digitBelow? base c = some d := by
  rw [digitBelow?, hc, Option.filter_some, if_pos (decide_eq_true hd)]

private theorem digits?_cons {next : Char} (hnext : next ≠ '_') :
    digits? base (c :: next :: cs) = (do return (← digitBelow? base c) :: (← digits? base (next :: cs))) := by
  rw [digits?]
  · exact List.cons_ne_nil _ _
  · intro _ hscore
    exact hnext (List.cons.inj hscore).1

/-- The value of a digit. -/
private def digitOf (c : Char) : Nat := (digitValue? c).getD 0

/-- Where all characters are digits, each gives its value. -/
private theorem digits?_eq_map (hne : cs ≠ []) (hcs : ∀ c ∈ cs, ∃ d, digitValue? c = some d ∧ d < base) :
    digits? base cs = some (cs.map digitOf) := by
  induction cs with
  | nil => exact absurd rfl hne
  | cons c cs ih =>
    obtain ⟨d, hc, hd⟩ := hcs c List.mem_cons_self
    have hvalue : digitOf c = d := by rw [digitOf, hc, Option.getD_some]
    rw [List.map_cons, hvalue]
    cases cs with
    | nil =>
      rw [digits?, digitBelow?_eq hc hd]
      rfl
    | cons next cs =>
      have hscore : next ≠ '_' := by
        rintro rfl
        obtain ⟨_, hnone, -⟩ := hcs '_' (List.mem_cons_of_mem _ List.mem_cons_self)
        contradiction
      have hbehind := ih (List.cons_ne_nil _ _) fun c hc => hcs c (List.mem_cons_of_mem _ hc)
      rw [digits?_cons hscore, digitBelow?_eq hc hd, hbehind]
      rfl

namespace IsNumeral

theorem ne_nil (h : IsNumeral base cs n) : cs ≠ [] := by
  cases h with
  | digit => exact List.cons_ne_nil _ _
  | concat => exact List.append_ne_nil_of_right_ne_nil _ (List.cons_ne_nil _ _)

theorem digit_of_mem (h : IsNumeral base cs n) : ∀ c ∈ cs, ∃ d, digitValue? c = some d ∧ d < base := by
  induction h with
  | @digit c d hc hd => exact List.forall_mem_singleton.2 ⟨d, hc, hd⟩
  | @concat cs n c d _ hc hd ih => exact List.forall_mem_append.2 ⟨ih, List.forall_mem_singleton.2 ⟨d, hc, hd⟩⟩

theorem visible (h : IsNumeral base cs n) : ∀ c ∈ cs, Visible c := by
  intro c hmem
  obtain ⟨d, hc, -⟩ := h.digit_of_mem c hmem
  obtain hrange | hrange | hrange := cases_of_digitValue? hc
  all_goals exact ⟨by omega, by omega⟩

private theorem ofDigits_eq (h : IsNumeral base cs n) : ofDigits base (cs.map digitOf) = n := by
  induction h with
  | digit hc => simp [ofDigits, digitOf, hc]
  | concat _ hc _ ih =>
    rw [ofDigits] at ih
    simp [ofDigits, digitOf, hc, ih]

private theorem digits?_eq (h : IsNumeral base cs n) : digits? base cs = some (cs.map digitOf) :=
  digits?_eq_map h.ne_nil h.digit_of_mem

theorem toNat_of_mem (h : IsNumeral 10 cs n) : ∀ c ∈ cs, 48 ≤ c.toNat ∧ c.toNat ≤ 57 := by
  intro c hmem
  obtain ⟨d, hc, hd⟩ := h.digit_of_mem c hmem
  obtain hrange | hrange | hrange := cases_of_digitValue? hc
  all_goals exact ⟨by omega, by omega⟩

theorem isDigit_of_mem (h : IsNumeral 10 cs n) : ∀ c ∈ cs, c.isDigit = true := by
  intro c hmem
  obtain ⟨hlow, hhigh⟩ := h.toNat_of_mem c hmem
  rw [Char.isDigit, Bool.and_eq_true, decide_eq_true_eq, decide_eq_true_eq]
  exact ⟨hlow, hhigh⟩

theorem notMem (h : IsNumeral 10 cs n) (hc : c.isDigit = false) : c ∉ cs := by
  intro hmem
  have hdigit := h.isDigit_of_mem c hmem
  rw [hc] at hdigit
  contradiction

theorem map_toLower (h : IsNumeral 10 cs n) : cs.map Char.toLower = cs := by
  refine (List.map_congr_left fun c hc => ?_).trans (List.map_id' cs)
  obtain ⟨-, hhigh⟩ := h.toNat_of_mem c hc
  have hcapital : ¬(c.val ≥ 'A'.val ∧ c.val ≤ 'Z'.val) := by
    intro hrange
    have hle : 65 ≤ c.toNat := hrange.1
    omega
  exact dif_neg hcapital

/-- In base ten a digit is worth its distance from zero. -/
theorem ofDigits_toNat (h : IsNumeral 10 cs n) : ofDigits 10 (cs.map fun c => c.toNat - 48) = n := by
  have hmap : (cs.map fun c => c.toNat - 48) = cs.map digitOf := by
    apply List.map_congr_left
    intro c hmem
    obtain ⟨d, hc, hd⟩ := h.digit_of_mem c hmem
    rw [digitOf, hc, Option.getD_some]
    obtain hrange | hrange | hrange := cases_of_digitValue? hc
    all_goals omega
  rw [hmap, h.ofDigits_eq]

/-- Digits are none of the characters that stand in front of them. -/
theorem ne_cons (h : IsNumeral base cs n) (hc : digitValue? c = none) (rest : List Char) : cs ≠ c :: rest := by
  rintro rfl
  obtain ⟨d, hd, -⟩ := h.digit_of_mem c List.mem_cons_self
  rw [hc] at hd
  contradiction

end IsNumeral

/-! #### Signs and marks -/

private theorem dropWhile_isSpace (hcs : ∀ c ∈ cs, Visible c) : cs.dropWhile isSpace = cs := by
  refine @dropWhile_append_eq isSpace [] cs nofun fun c hc => ?_
  obtain ⟨hlow, -⟩ := hcs c (List.mem_of_head? hc)
  have hne : c ≠ ' ' := by
    rintro rfl
    contradiction
  rw [isSpace, Bool.or_eq_false_iff, Bool.and_eq_false_iff]
  exact ⟨beq_false_of_ne hne, .inr (decide_eq_false (by omega))⟩

/-- A visible numeral in ASCII stays as it is. -/
theorem asciiNumeral_ofList (hcs : ∀ c ∈ cs, Visible c) : asciiNumeral (String.ofList cs) = cs := by
  have hmap : cs.map asciiChar = cs := (List.map_congr_left fun c hc => if_pos (hcs c hc).2).trans (List.map_id' cs)
  have hreverse : ∀ c ∈ cs.reverse, Visible c := fun c hc => hcs c (List.mem_reverse.1 hc)
  rw [asciiNumeral, String.toList_ofList, hmap, trim, dropWhile_isSpace hcs, dropWhile_isSpace hreverse,
    List.reverse_reverse]

private theorem sign_of_splitSign (hsign : IsSign v sign) (hcs : ∀ rest, cs ≠ '-' :: rest ∧ cs ≠ '+' :: rest) :
    ∃ negative, splitSign (sign ++ cs) = (negative, cs) ∧ withSign negative v.natAbs = v := by
  cases hsign with
  | none hv =>
    refine ⟨false, ?_, Int.natAbs_of_nonneg hv⟩
    rw [List.nil_append, splitSign]
    · exact fun rest => (hcs rest).1
    · exact fun rest => (hcs rest).2
  | plus hv => exact ⟨false, rfl, Int.natAbs_of_nonneg hv⟩
  | minus hv =>
    refine ⟨true, rfl, ?_⟩
    rw [withSign, if_pos rfl]
    omega

theorem IsSign.visible (hsign : IsSign v sign) : ∀ c ∈ sign, Visible c := by
  cases hsign with
  | none => exact nofun
  | plus => exact List.forall_mem_singleton.2 (by decide)
  | minus => exact List.forall_mem_singleton.2 (by decide)

theorem decimalInteger?_eq (hsign : IsSign v sign) (hcs : IsNumeral 10 cs v.natAbs)
    (hlength : cs.length ≤ maxIntegerDigits) : decimalInteger? (String.ofList (sign ++ cs)) = some v := by
  obtain ⟨negative, hsplit, hv⟩ := sign_of_splitSign hsign fun rest => ⟨hcs.ne_cons rfl rest, hcs.ne_cons rfl rest⟩
  have hguard : (guard ((cs.map digitOf).length ≤ maxIntegerDigits) : Option Unit) = some () :=
    if_pos (List.length_map (f := digitOf) ▸ hlength)
  rw [decimalInteger?, asciiNumeral_ofList (List.forall_mem_append.2 ⟨hsign.visible, hcs.visible⟩), hsplit]
  change (digits? 10 cs).bind _ = _
  rw [hcs.digits?_eq, Option.bind_some, hguard, hcs.ofDigits_eq]
  exact congrArg some hv

private theorem afterHexMark_eq {mark : Char} (hmark : mark = 'x' ∨ mark = 'X') (hcs : ∀ rest, cs ≠ '_' :: rest) :
    afterHexMark ('0' :: mark :: cs) = cs := by
  obtain rfl | rfl := hmark
  · rw [afterHexMark]
    exact hcs
  · rw [afterHexMark]
    exact hcs

theorem visible_marked {mark : Char} (hmark : mark = 'x' ∨ mark = 'X') (hcs : IsNumeral base cs n) :
    ∀ c ∈ '0' :: mark :: cs, Visible c := by
  have hvisible : Visible mark := by
    obtain rfl | rfl := hmark
    · decide
    · decide
  exact List.forall_mem_cons.2 ⟨by decide, List.forall_mem_cons.2 ⟨hvisible, hcs.visible⟩⟩

theorem hexInteger?_eq {mark : Char} (hsign : IsSign v sign) (hmark : mark = 'x' ∨ mark = 'X')
    (hcs : IsNumeral 16 cs v.natAbs) : hexInteger? (String.ofList (sign ++ '0' :: mark :: cs)) = some v := by
  have hdigit (rest : List Char) : '0' :: mark :: cs ≠ '-' :: rest ∧ '0' :: mark :: cs ≠ '+' :: rest :=
    ⟨fun h => absurd (List.cons.inj h).1 (by decide), fun h => absurd (List.cons.inj h).1 (by decide)⟩
  obtain ⟨negative, hsplit, hv⟩ := sign_of_splitSign hsign hdigit
  rw [hexInteger?, asciiNumeral_ofList (List.forall_mem_append.2 ⟨hsign.visible, visible_marked hmark hcs⟩), hsplit]
  change (digits? 16 (afterHexMark ('0' :: mark :: cs))).bind _ = _
  rw [afterHexMark_eq hmark (hcs.ne_cons rfl), hcs.digits?_eq, Option.bind_some, hcs.ofDigits_eq]
  exact congrArg some hv

/-! ### Literals that are read -/

/-- The characters that write the exponent of a literal, behind its digits. -/
inductive IsExponent : Int → List Char → Prop where
  | none : IsExponent 0 []
  | marked {mark : Char} {sign digits : List Char} {e : Int} (hmark : mark = 'e' ∨ mark = 'E') (hsign : IsSign e sign)
      (hdigits : IsNumeral 10 digits e.natAbs) : IsExponent e (mark :: (sign ++ digits))

/-- The characters that write a literal. -/
inductive IsLiteral (n : Nat) : Int → List Char → Prop where
  | whole {digits exp : List Char} {e : Int} (hdigits : IsNumeral 10 digits n) (hexp : IsExponent e exp) :
      IsLiteral n e (digits ++ exp)
  | pointed {whole fraction exp : List Char} {e : Int} (hdigits : IsNumeral 10 (whole ++ fraction) n)
      (hexp : IsExponent e exp) : IsLiteral n (e - fraction.length) (whole ++ '.' :: (fraction ++ exp))

theorem IsLiteral.of_eq {e e' : Int} (h : IsLiteral n e cs) (he : e = e') : IsLiteral n e' cs := he ▸ h

/-- The characters of literals: digits, signs, points and the marks of exponents. -/
private theorem IsLiteral.mem_cases {e : Int} (h : IsLiteral n e cs) :
    ∀ c ∈ cs, (48 ≤ c.toNat ∧ c.toNat ≤ 57) ∨ c ∈ ['+', '-', '.', 'e', 'E'] := by
  have hexp {e : Int} {exp : List Char} (h : IsExponent e exp) :
      ∀ c ∈ exp, (48 ≤ c.toNat ∧ c.toNat ≤ 57) ∨ c ∈ ['+', '-', '.', 'e', 'E'] := by
    cases h with
    | none => exact nofun
    | marked hmark hsign hdigits =>
      refine List.forall_mem_cons.2 ⟨?_, List.forall_mem_append.2 ⟨?_, fun c hc => .inl (hdigits.toNat_of_mem c hc)⟩⟩
      · rcases hmark with rfl | rfl <;> simp
      · cases hsign <;> simp
  cases h with
  | whole hdigits hend =>
    exact List.forall_mem_append.2 ⟨fun c hc => .inl (hdigits.toNat_of_mem c hc), hexp hend⟩
  | pointed hdigits hend =>
    refine List.forall_mem_append.2 ⟨fun c hc => .inl (hdigits.toNat_of_mem c (by simp [hc])), ?_⟩
    refine List.forall_mem_cons.2 ⟨by simp, List.forall_mem_append.2 ⟨fun c hc => ?_, hexp hend⟩⟩
    exact .inl (hdigits.toNat_of_mem c (by simp [hc]))

theorem IsLiteral.visible {e : Int} (h : IsLiteral n e cs) : ∀ c ∈ cs, Visible c ∧ c ≠ '_' := by
  intro c hc
  rcases h.mem_cases c hc with hdigit | hmark
  · have hne : c ≠ '_' := by
      rintro rfl
      exact absurd hdigit (by decide)
    exact ⟨⟨by omega, by omega⟩, hne⟩
  · have hall : ['+', '-', '.', 'e', 'E'].all (fun c => decide (Visible c ∧ c ≠ '_')) = true := by decide
    exact of_decide_eq_true (List.all_eq_true.1 hall c hmark)

/-- A literal begins with a digit or a point. -/
theorem IsLiteral.exists_cons {e : Int} (h : IsLiteral n e cs) :
    ∃ c rest, cs = c :: rest ∧ 46 ≤ c.toNat ∧ c.toNat ≤ 57 := by
  cases h with
  | @whole digits exp _ hdigits _ =>
    obtain ⟨c, rest, rfl⟩ := List.exists_cons_of_ne_nil hdigits.ne_nil
    have hc := hdigits.toNat_of_mem c (by simp)
    exact ⟨c, rest ++ exp, rfl, by omega, hc.2⟩
  | @pointed whole fraction exp _ hdigits _ =>
    cases whole with
    | nil => exact ⟨'.', _, rfl, by decide, by decide⟩
    | cons c rest =>
      have hc := hdigits.toNat_of_mem c (by simp)
      exact ⟨c, _, rfl, by omega, hc.2⟩

private theorem exponent?_eq {e : Int} {exp : List Char} (h : IsExponent e exp) : exponent? exp = some e := by
  cases h with
  | none => rfl
  | @marked mark sign digits e hmark hsign hdigits =>
    obtain ⟨negative, hsplit, he⟩ :=
      sign_of_splitSign hsign fun rest => ⟨hdigits.ne_cons rfl rest, hdigits.ne_cons rfl rest⟩
    have hall : digits.all Char.isDigit = true := List.all_eq_true.2 hdigits.isDigit_of_mem
    rw [exponent?, hsplit]
    dsimp only
    rw [if_pos ⟨hmark, hdigits.ne_nil, hall⟩, hdigits.ofDigits_toNat, he]

/-- An exponent goes on with no digit. -/
private theorem IsExponent.head?_isDigit {e : Int} {exp : List Char} (h : IsExponent e exp) :
    ∀ c, exp.head? = some c → c.isDigit = false ∧ c ≠ '.' := by
  rintro c hc
  cases h with
  | none => simp at hc
  | marked hmark =>
    cases hc
    rcases hmark with rfl | rfl
    · decide
    · decide

theorem literal?_eq {e : Int} (h : IsLiteral n e cs) : literal? cs = some ⟨n, e⟩ := by
  cases h with
  | @whole digits exp e hdigits hexp =>
    have htake := takeWhile_append_eq hdigits.isDigit_of_mem fun c hc => (hexp.head?_isDigit c hc).1
    have hsplit : splitFraction exp = ([], exp) := by
      rw [splitFraction]
      rintro rest rfl
      exact (hexp.head?_isDigit '.' rfl).2 rfl
    have hguard : (guard (digits ≠ []) : Option Unit) = some () := if_pos hdigits.ne_nil
    unfold literal?
    dsimp only
    rw [htake, List.drop_left, hsplit]
    dsimp only
    rw [List.append_nil, hguard, exponent?_eq hexp, hdigits.ofDigits_toNat]
    exact congrArg (fun e => some (⟨n, e⟩ : Literal)) (Int.sub_zero e)
  | @pointed whole fraction exp e hdigits hexp =>
    have hwhole : ∀ c ∈ whole, c.isDigit = true := fun c hc => hdigits.isDigit_of_mem c (by simp [hc])
    have hfraction : ∀ c ∈ fraction, c.isDigit = true := fun c hc => hdigits.isDigit_of_mem c (by simp [hc])
    have hpoint : ∀ c, ('.' :: (fraction ++ exp)).head? = some c → c.isDigit = false := by
      rintro c ⟨⟩
      decide
    have htake := takeWhile_append_eq hwhole hpoint
    have hsplit : splitFraction ('.' :: (fraction ++ exp)) = (fraction, exp) := by
      rw [splitFraction, takeWhile_append_eq hfraction fun c hc => (hexp.head?_isDigit c hc).1,
        dropWhile_append_eq hfraction fun c hc => (hexp.head?_isDigit c hc).1]
    have hguard : (guard (whole ++ fraction ≠ []) : Option Unit) = some () := if_pos hdigits.ne_nil
    unfold literal?
    dsimp only
    rw [htake, List.drop_left, hsplit]
    dsimp only
    rw [hguard, exponent?_eq hexp, hdigits.ofDigits_toNat]
    rfl

end CilProbe.Text
