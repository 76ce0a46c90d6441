import CilProbe.Proofs.Conversion.Parameter

/-!
# Integers that are converted

Integers are written in base ten, or behind a mark in base sixteen (`Conversion.Writes`), with blanks around them
(`Conversion.Renders`).  Which base counts is decided by the mark alone, so zeros in front of decimal digits do not
matter, and every such text is read as the integer that it renders (`Conversion.number_of_renders`).  As the value of a
parameter it counts only if it lies in the range of the type (`Synthesis.convert_integers`).
-/

namespace CilProbe

/-! ### Digits that are written -/

namespace Text

variable {base n : Nat} {cs : List Char}

private theorem digitValue?_digitChar : ∀ d < 16, digitValue? (Nat.digitChar d) = some d := by decide

theorem isNumeral_toDigits (hlow : 1 < base) (hhigh : base ≤ 16) (n : Nat) :
    IsNumeral base (Nat.toDigits base n) n := by
  induction n using Nat.strongRecOn with
  | ind n ih =>
    by_cases hn : n < base
    · rw [Nat.toDigits_of_lt_base hn]
      exact .digit (digitValue?_digitChar n (by omega)) hn
    · have hmod := Nat.mod_lt n (by omega : 0 < base)
      rw [Nat.toDigits_of_base_le hlow (by omega)]
      have hlast := IsNumeral.concat (ih (n / base) (Nat.div_lt_self (by omega) hlow))
        (digitValue?_digitChar (n % base) (by omega)) hmod
      rwa [Nat.div_add_mod] at hlast

theorem IsNumeral.zero (h : IsNumeral base cs n) : IsNumeral base ('0' :: cs) n := by
  induction h with
  | @digit c d hc hd =>
    have hfirst : IsNumeral base ['0'] 0 := .digit rfl (Nat.zero_lt_of_lt hd)
    have hcs := hfirst.concat hc hd
    rwa [Nat.mul_zero, Nat.zero_add] at hcs
  | concat _ hc hd ih => exact ih.concat hc hd

theorem IsNumeral.zeros (h : IsNumeral base cs n) (zeros : Nat) :
    IsNumeral base (List.replicate zeros '0' ++ cs) n := by
  induction zeros with
  | zero => exact h
  | succ zeros ih => exact ih.zero

private theorem digitValue?_toLower (c : Char) : digitValue? c.toLower = digitValue? c := by
  by_cases hc : c.toNat < 0x7F
  · have hall : ∀ n < 0x7F, digitValue? (Char.ofNat n).toLower = digitValue? (Char.ofNat n) := by decide
    have hlower := hall c.toNat hc
    rwa [Char.ofNat_toNat] at hlower
  · have hcapital : ¬(c.val ≥ 'A'.val ∧ c.val ≤ 'Z'.val) := fun h =>
      hc (Nat.lt_of_le_of_lt h.2 (by decide))
    exact congrArg digitValue? (dif_neg hcapital)

/-- Capital letters are the same digits. -/
theorem IsNumeral.of_map_toLower (h : IsNumeral base (cs.map Char.toLower) n) : IsNumeral base cs n := by
  generalize hlower : cs.map Char.toLower = small at h
  induction h generalizing cs with
  | digit hc hd =>
    obtain ⟨c, rfl, rfl⟩ := List.map_eq_singleton_iff.1 hlower
    rw [digitValue?_toLower] at hc
    exact .digit hc hd
  | concat _ hc hd ih =>
    obtain ⟨front, last, rfl, hfront, hlast⟩ := List.map_eq_append_iff.1 hlower
    obtain ⟨c, rfl, rfl⟩ := List.map_eq_singleton_iff.1 hlast
    rw [digitValue?_toLower] at hc
    exact (ih hfront).concat hc hd

end Text

namespace Conversion

/-! ### Texts of integers -/

/-- The characters that write an integer: a sign, zeros and the digits in base ten, of which there are not too many, or
a sign, a mark, zeros and the digits in base sixteen, whose letters may be small or capital. -/
inductive Writes (v : Int) : List Char → Prop where
  | decimal {sign : List Char} (zeros : Nat) (hsign : Text.IsSign v sign)
      (hlength : zeros + (Nat.toDigits 10 v.natAbs).length ≤ Text.maxIntegerDigits) :
      Writes v (sign ++ (List.replicate zeros '0' ++ Nat.toDigits 10 v.natAbs))
  | hex {sign digits : List Char} {mark : Char} (zeros : Nat) (hsign : Text.IsSign v sign)
      (hmark : mark = 'x' ∨ mark = 'X') (hdigits : digits.map Char.toLower = Nat.toDigits 16 v.natAbs) :
      Writes v (sign ++ '0' :: mark :: (List.replicate zeros '0' ++ digits))

/-- There may be blanks around an integer. -/
def Renders (v : Int) (text : String) : Prop :=
  ∃ before cs after, text.toList = before ++ (cs ++ after) ∧ Writes v cs ∧ (∀ c ∈ before, Text.isBlank c = true) ∧
    ∀ c ∈ after, Text.isBlank c = true

variable {v low high : Int} {text : String} {sign cs : List Char}

private theorem Writes.cases (h : Writes v cs) :
    (∃ sign digits, cs = sign ++ digits ∧ Text.IsSign v sign ∧ Text.IsNumeral 10 digits v.natAbs ∧
      digits.length ≤ Text.maxIntegerDigits) ∨
    ∃ sign mark digits, cs = sign ++ '0' :: mark :: digits ∧ Text.IsSign v sign ∧ (mark = 'x' ∨ mark = 'X') ∧
      Text.IsNumeral 16 digits v.natAbs := by
  cases h with
  | decimal zeros hsign hlength =>
    refine .inl ⟨_, _, rfl, hsign, (Text.isNumeral_toDigits (by decide) (by decide) _).zeros zeros, ?_⟩
    rwa [List.length_append, List.length_replicate]
  | hex zeros hsign hmark hdigits =>
    refine .inr ⟨_, _, _, rfl, hsign, hmark, .zeros (.of_map_toLower ?_) zeros⟩
    rw [hdigits]
    exact Text.isNumeral_toDigits (by decide) (by decide) _

/-- Behind the sign it is the mark that tells the base. -/
private theorem isHex_iff {first : Char} (hstrip : Text.strip text = String.ofList (sign ++ first :: cs))
    (hsign : Text.IsSign v sign) (hfirst : 48 ≤ first.toNat ∧ first.toNat ≤ 57) (hvisible : ∀ c ∈ cs, Text.Visible c) :
    isHex text = true ↔ first = '0' ∧ ∃ rest, cs.map Text.lowerChar = 'x' :: rest := by
  have hlower : Text.lowerChar first = first := Text.lowerChar_of_lt (by omega)
  have hascii : ∀ c ∈ (String.ofList (sign ++ first :: cs)).toList, c.toNat < 0x7F := by
    have hfirst' : Text.Visible first := ⟨by omega, by omega⟩
    rw [String.toList_ofList]
    exact fun c hc =>
      (List.forall_mem_append.2 ⟨hsign.visible, List.forall_mem_cons.2 ⟨hfirst', hvisible⟩⟩ c hc).2
  have hsigns : ∀ c ∈ sign.map Text.lowerChar, (c == '+' || c == '-') = true := by
    cases hsign with
    | none => exact nofun
    | plus =>
      rw [List.map_singleton, Text.lowerChar_of_lt (by decide)]
      exact List.forall_mem_singleton.2 rfl
    | minus =>
      rw [List.map_singleton, Text.lowerChar_of_lt (by decide)]
      exact List.forall_mem_singleton.2 rfl
  have hhead : ∀ c, (first :: cs.map Text.lowerChar).head? = some c → (c == '+' || c == '-') = false := by
    rintro c ⟨⟩
    rw [Bool.or_eq_false_iff, beq_eq_false_iff_ne, beq_eq_false_iff_ne]
    constructor
    · rintro rfl
      exact absurd hfirst (by decide)
    · rintro rfl
      exact absurd hfirst (by decide)
  rw [isHex, hstrip, Text.toList_lower hascii, String.toList_ofList, List.map_append, List.map_cons, hlower,
    Text.dropWhile_append_eq hsigns hhead]
  constructor
  · intro h
    split at h
    · next heq => exact ⟨(List.cons.inj heq).1, _, (List.cons.inj heq).2⟩
    · contradiction
  · rintro ⟨rfl, rest, hrest⟩
    rw [hrest]
    rfl

private theorem not_isHex {n : Nat} (hstrip : Text.strip text = String.ofList (sign ++ cs))
    (hsign : Text.IsSign v sign) (hcs : Text.IsNumeral 10 cs n) : ¬isHex text := by
  have hdigits := hcs.toNat_of_mem
  have hvisible := hcs.visible
  obtain ⟨first, rest, rfl⟩ := List.exists_cons_of_ne_nil hcs.ne_nil
  obtain ⟨hfirst, hrest⟩ := List.forall_mem_cons.1 hdigits
  rw [isHex_iff hstrip hsign hfirst (List.forall_mem_cons.1 hvisible).2]
  rintro ⟨-, tail, htail⟩
  -- No digit stands where the mark would be.
  obtain ⟨c, rest, rfl, hc, -⟩ := List.map_eq_cons_iff.1 htail
  have hdigit := hrest c List.mem_cons_self
  rw [Text.lowerChar_of_lt (by omega)] at hc
  subst hc
  exact absurd hdigit (by decide)

private theorem isHex_marked {mark : Char} (hstrip : Text.strip text = String.ofList (sign ++ '0' :: mark :: cs))
    (hsign : Text.IsSign v sign) (hmark : mark = 'x' ∨ mark = 'X')
    (hvisible : ∀ c ∈ '0' :: mark :: cs, Text.Visible c) : isHex text := by
  rw [isHex_iff hstrip hsign (by decide) (List.forall_mem_cons.1 hvisible).2, List.map_cons, Text.lowerChar_mark hmark]
  exact ⟨rfl, _, rfl⟩

/-- A text is read as the integer that it renders. -/
theorem number_of_renders (h : Renders v text) :
    (if isHex text then Text.hexInteger? (Text.strip text) else Text.decimalInteger? (Text.strip text)) = some v := by
  obtain ⟨before, cs, after, htext, hwrites, hbefore, hafter⟩ := h
  obtain ⟨sign, digits, rfl, hsign, hdigits, hlength⟩ | ⟨sign, mark, digits, rfl, hsign, hmark, hdigits⟩ :=
    hwrites.cases
  · have hvisible := List.forall_mem_append.2 ⟨hsign.visible, hdigits.visible⟩
    have hstrip := Text.strip_eq htext hbefore hvisible hafter (List.append_ne_nil_of_right_ne_nil _ hdigits.ne_nil)
    rw [if_neg (not_isHex hstrip hsign hdigits), hstrip]
    exact Text.decimalInteger?_eq hsign hdigits hlength
  · have hvisible := Text.visible_marked hmark hdigits
    have hstrip := Text.strip_eq htext hbefore (List.forall_mem_append.2 ⟨hsign.visible, hvisible⟩) hafter
      (List.append_ne_nil_of_right_ne_nil _ (List.cons_ne_nil _ _))
    rw [if_pos (isHex_marked hstrip hsign hmark hvisible), hstrip]
    exact Text.hexInteger?_eq hsign hmark hdigits

/-- The integer that a text renders is given if it is in range.  Otherwise it is named, unless it is too long. -/
theorem integer_of_renders (h : Renders v text) :
    integer low high text =
      if low ≤ v ∧ v ≤ high then .ok (.int v)
      else .error (if v.natAbs < 10 ^ Text.maxIntegerDigits then .outOfRange v low high else .malformed) := by
  rw [integer, number_of_renders h]
  dsimp only
  split
  · rfl
  · split
    · rfl
    · rfl

/-- What is given is in range. -/
theorem integer_ok_or_error (low high : Int) (text : String) :
    (∃ v, low ≤ v ∧ v ≤ high ∧ integer low high text = .ok (.int v)) ∨
      ∃ reason, integer low high text = .error reason := by
  rw [integer]
  split
  · exact .inr ⟨_, rfl⟩
  · next v _ =>
    split
    · next hv => exact .inl ⟨v, hv.1, hv.2, rfl⟩
    · split
      · exact .inr ⟨_, rfl⟩
      · exact .inr ⟨_, rfl⟩

theorem reader?_of_mem {typeName : String} (h : (typeName, low, high) ∈ integerRanges) :
    reader? typeName = some (integer low high) := by
  have hlookup : ∀ range ∈ integerRanges, integerRanges.lookup range.1 = some range.2 := by decide
  rw [reader?, hlookup _ h]

end Conversion

/-! ### Parameters -/

namespace Synthesis

open Conversion (Renders)

variable {τ μ σ : Type} {h : Host τ μ σ} {p : Parameter τ} {low high : Int} {s s' : Session σ}

/-- Text for a value type that has a reader is what the reader makes of it.  A reason that it gives is told with the
names of the parameter and of the type. -/
theorem run_convert {read : String → Except ConversionReason Value} (hread : Conversion.reader? p.typeName = some read)
    (hkind : (h.typeKind p.type).run s = (.ok .value, s')) (text : String) :
    (convert h p text).run s =
      ((read text).mapError fun reason => .fault (.conversion ⟨p.name, p.typeName, some text, reason⟩), s') := by
  exact run_convert_of_reader hread ⟨.value, hkind, nofun, nofun⟩ text

/-- What the conversion of text to an integer type comes to.  A text that renders an integer gives it if it is in the
range of the type, and is otherwise refused with the names of the parameter and of the type.  Whatever the text is,
nothing else happens. -/
theorem convert_integers (hrange : (p.typeName, low, high) ∈ Conversion.integerRanges)
    (hkind : (h.typeKind p.type).run s = (.ok .value, s')) :
    (∀ v text, Renders v text → low ≤ v ∧ v ≤ high → (convert h p text).run s = (.ok (.int v), s')) ∧
    (∀ v text, Renders v text → ¬(low ≤ v ∧ v ≤ high) → ∃ reason, (convert h p text).run s =
      (.error (.fault (.conversion ⟨p.name, p.typeName, some text, reason⟩)), s')) ∧
    ∀ text, (∃ v, low ≤ v ∧ v ≤ high ∧ (convert h p text).run s = (.ok (.int v), s')) ∨
      ∃ reason, (convert h p text).run s =
        (.error (.fault (.conversion ⟨p.name, p.typeName, some text, reason⟩)), s') := by
  have hrun := run_convert (Conversion.reader?_of_mem hrange) hkind
  refine ⟨fun v text hrenders hv => ?_, fun v text hrenders hv => ?_, fun text => ?_⟩
  · rw [hrun, Conversion.integer_of_renders hrenders, if_pos hv]
    rfl
  · rw [hrun, Conversion.integer_of_renders hrenders, if_neg hv]
    exact ⟨_, rfl⟩
  · rw [hrun]
    obtain ⟨v, hlow, hhigh, hread⟩ | ⟨reason, hread⟩ := Conversion.integer_ok_or_error low high text
    · exact .inl ⟨v, hlow, hhigh, by rw [hread]; rfl⟩
    · exact .inr ⟨reason, by rw [hread]; rfl⟩

private def sbyteHost : Host Unit Unit Unit :=
  TypeGraph.host {
    typeName _ := "System.SByte"
    kind _ := .value
    members _ := []
    element type := type
    newArray _ _ := .none
    created _ := none
    constructors _ := []
    parameters _ := []
    construct _ := none } (.fault default)

private def sbyteParameter : Parameter Unit where
  name := "level"
  type := ()
  typeName := "System.SByte"
  position := 0
  isOptional := false
  declared := none

theorem convert_integers_sbyte :
    (convert sbyteHost sbyteParameter " -0X80\n").run (Session.start ()) = (.ok (.int (-128)), Session.start ()) ∧
      ∃ reason, (convert sbyteHost sbyteParameter "+0128").run (Session.start ()) =
        (.error (.fault (.conversion ⟨"level", "System.SByte", some "+0128", reason⟩)), Session.start ()) := by
  have hall := @convert_integers _ _ _ sbyteHost sbyteParameter (-128) 127 (Session.start ()) _ (by decide) rfl
  have hlow : Conversion.Writes (-128) ['-', '0', 'X', '8', '0'] :=
    @Conversion.Writes.hex (-128) ['-'] ['8', '0'] 'X' 0 (.minus (by decide)) (.inr rfl) (by decide)
  have hhigh : Conversion.Writes 128 ['+', '0', '1', '2', '8'] :=
    @Conversion.Writes.decimal 128 ['+'] 1 (.plus (by decide)) (by decide)
  have hspace : ∀ c ∈ [' '], Text.isBlank c = true := List.forall_mem_singleton.2 rfl
  have hnewline : ∀ c ∈ ['\n'], Text.isBlank c = true := List.forall_mem_singleton.2 rfl
  exact ⟨hall.1 _ _ ⟨_, _, _, rfl, hlow, hspace, hnewline⟩ (by decide),
    hall.2.1 _ _ ⟨[], _, [], rfl, hhigh, nofun, nofun⟩ (by decide)⟩

end Synthesis

end CilProbe
