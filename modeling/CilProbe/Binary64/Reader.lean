import CilProbe.Binary64
import CilProbe.Text.Numeral

/-!
# Reading doubles

A decimal literal is rounded to the nearest double, once and exactly. Infinity and NaN are written as words.
-/

namespace CilProbe.Binary64

/-- The size beyond which a power of ten is infinite, or below which it is zero, with room for rounding. -/
private def decimalRange : Int := 400

/-- The double nearest to a literal. -/
def ofLiteral (negative : Bool) (x : Text.Literal) : Binary64 :=
  let size := x.exponent + (toString x.coefficient).length
  if x.coefficient = 0 ∨ size < -decimalRange then zero negative
  else if decimalRange < size then infinity negative
  else ofRatio negative (x.coefficient * 10 ^ x.exponent.toNat) (10 ^ (-x.exponent).toNat)

/-- Whether every underscore stands between two digits; `before` is the character in front. -/
private def underscoresSeparate (before : Char) : List Char → Bool
  | [] => before != '_'
  | c :: cs => (if c == '_' then before.isDigit else before != '_' || c.isDigit) && underscoresSeparate c cs

/-- The double that a text writes. -/
def ofText? (s : String) : Option Binary64 :=
  let text := Text.asciiNumeral s
  if underscoresSeparate ' ' text then
    let (negative, cs) := Text.splitSign (text.filter (· != '_'))
    match String.ofList (cs.map Char.toLower) with
    | "inf" | "infinity" => some (infinity negative)
    | "nan" => some nan
    | _ => (Text.literal? cs).map (ofLiteral negative)
  else none

/-- The part of a finite double in front of the point, rounded towards zero, and the rest as a ratio. -/
def split (x : Binary64) : Nat × Nat × Nat :=
  let m := x.magnitude
  let num := m.significand * 2 ^ m.exponent.toNat
  let den := 2 ^ (-m.exponent).toNat
  (num / den, num % den, den)

/-! ### Whole numbers that are read -/

private theorem underscoresSeparate_of_isDigit {before : Char} {cs : List Char} (hbefore : before ≠ '_')
    (hcs : ∀ c ∈ cs, c.isDigit = true) : underscoresSeparate before cs = true := by
  induction cs generalizing before with
  | nil => simp [underscoresSeparate, hbefore]
  | cons c cs ih =>
    have hc := hcs c (by simp)
    have hne : c ≠ '_' := by
      rintro rfl
      contradiction
    have hrest := ih hne fun c hc => hcs c (by simp [hc])
    simp [underscoresSeparate, hne, hc, hrest]

/-- A text that begins with a letter writes no number. -/
private theorem ofList_ne {n : Nat} {cs : List Char} (h : Text.IsNumeral 10 cs n) {first : Char} {rest : List Char}
    {word : String} (hword : word.toList = first :: rest) (hfirst : first.isDigit = false) :
    String.ofList cs ≠ word := by
  rintro rfl
  rw [String.toList_ofList] at hword
  exact h.notMem hfirst (by simp [hword])

/-- Digits are the double of their number. -/
theorem ofText?_of_isNumeral {n : Nat} {cs : List Char} (h : Text.IsNumeral 10 cs n) :
    ofText? (String.ofList cs) = some (ofLiteral false ⟨n, 0⟩) := by
  have hseparate := underscoresSeparate_of_isDigit (by decide : ' ' ≠ '_') h.isDigit_of_mem
  have hscores : cs.filter (· != '_') = cs := by
    rw [List.filter_eq_self]
    intro c hc
    have hne : c ≠ '_' := by
      rintro rfl
      exact h.notMem (by decide) hc
    simpa using hne
  have hsplit : Text.splitSign cs = (false, cs) := by
    rw [Text.splitSign]
    · exact h.ne_cons rfl
    · exact h.ne_cons rfl
  have hliteral : Text.literal? cs = some ⟨n, 0⟩ := by
    have hwhole := Text.literal?_eq (.whole h .none)
    rwa [List.append_nil] at hwhole
  unfold ofText?
  rw [Text.asciiNumeral_ofList h.visible]
  dsimp only
  rw [if_pos hseparate, hscores, hsplit]
  dsimp only
  rw [h.map_toLower, hliteral]
  split
  · next hword => exact absurd hword (ofList_ne h rfl rfl)
  · next hword => exact absurd hword (ofList_ne h rfl rfl)
  · next hword => exact absurd hword (ofList_ne h rfl rfl)
  · rfl

/-- The seconds of a minute are doubles without a fraction. -/
theorem split_ofLiteral_of_lt : ∀ n < 60, (ofLiteral false ⟨n, 0⟩).isFinite = true ∧
    (ofLiteral false ⟨n, 0⟩).isNegative = false ∧ (ofLiteral false ⟨n, 0⟩).split.1 = n ∧
    (ofLiteral false ⟨n, 0⟩).split.2.1 = 0 := by
  decide +kernel

end CilProbe.Binary64
