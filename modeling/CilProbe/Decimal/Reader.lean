import CilProbe.Decimal.Basic
import CilProbe.Text.Numeral

/-!
# Reading decimal numbers

A literal is taken exactly as it is written. Underscores may stand anywhere and do not count.
-/

namespace CilProbe.Decimal

/-- The largest exponent of a leading digit. -/
def maxExponent : Int := 999999999999999999

/-- The smallest exponent of a last digit. -/
def minExponent : Int := -1999999999999999997

/-- A character of a literal: digits of any script become ASCII digits. -/
private def plainChar (c : Char) : Char :=
  if c.toNat < 128 then c else ((Text.digit? c).map fun d => Char.ofNat (48 + d)).getD '?'

/-- The diagnostic number of a NaN. -/
private def payload? (cs : List Char) : Option Nat :=
  if cs.all Char.isDigit then some (Text.ofDigits 10 (cs.map fun c => c.toNat - 48)) else none

private def finite? (negative : Bool) (x : Text.Literal) : Option Decimal :=
  let leading := if x.coefficient = 0 then x.exponent else x.exponent + (toString x.coefficient).length - 1
  if leading ≤ maxExponent ∧ minExponent ≤ x.exponent then some (finite negative x.coefficient x.exponent) else none

/-- The decimal number that a text writes. -/
def ofText? (s : String) : Option Decimal :=
  let text := ((Text.strip s).toList.map plainChar).filter (· != '_')
  let (negative, cs) := Text.splitSign text
  match cs.map Char.toLower with
  | ['i', 'n', 'f'] | ['i', 'n', 'f', 'i', 'n', 'i', 't', 'y'] => some (infinite negative)
  | 'n' :: 'a' :: 'n' :: digits => (payload? digits).map (nan negative false)
  | 's' :: 'n' :: 'a' :: 'n' :: digits => (payload? digits).map (nan negative true)
  | _ => (Text.literal? cs).bind (finite? negative)

/-! ### Decimals that are read -/

/-- A decimal whose exponents stay within the bounds. -/
def Writable : Decimal → Prop
  | finite _ coefficient exponent =>
    (if coefficient = 0 then exponent else exponent + (toString coefficient).length - 1) ≤ maxExponent ∧
      minExponent ≤ exponent
  | infinite _ => True
  | nan _ _ _ => True

instance : (d : Decimal) → Decidable d.Writable
  | finite _ _ _ => inferInstanceAs (Decidable (_ ∧ _))
  | infinite _ => inferInstanceAs (Decidable True)
  | nan _ _ _ => inferInstanceAs (Decidable True)

private theorem finite?_eq_some_iff {negative : Bool} {x : Text.Literal} {d : Decimal} :
    finite? negative x = some d ↔ d = finite negative x.coefficient x.exponent ∧ d.Writable := by
  by_cases hx : (finite negative x.coefficient x.exponent).Writable
  · have hread : finite? negative x = some (finite negative x.coefficient x.exponent) := if_pos hx
    rw [hread]
    constructor
    · intro h
      cases h
      exact ⟨rfl, hx⟩
    · rintro ⟨rfl, -⟩
      rfl
  · have hread : finite? negative x = none := if_neg hx
    rw [hread]
    constructor
    · exact nofun
    · rintro ⟨rfl, hx'⟩
      exact absurd hx' hx

/-- Whatever is read is writable. -/
theorem writable_of_ofText? {s : String} {d : Decimal} (h : ofText? s = some d) : d.Writable := by
  unfold ofText? at h
  dsimp only at h
  split at h
  · cases h
    trivial
  · cases h
    trivial
  · obtain ⟨payload, -, rfl⟩ := Option.map_eq_some_iff.1 h
    trivial
  · obtain ⟨payload, -, rfl⟩ := Option.map_eq_some_iff.1 h
    trivial
  · obtain ⟨x, -, h⟩ := Option.bind_eq_some_iff.1 h
    exact (finite?_eq_some_iff.1 h).2

/-- The sign in front of a decimal. -/
def signOf (negative : Bool) : List Char := if negative then ['-'] else []

private theorem plain_signOf (negative : Bool) : ∀ c ∈ signOf negative, Text.Visible c ∧ c ≠ '_' := by
  cases negative with
  | true => exact List.forall_mem_singleton.2 (by decide)
  | false => exact nofun

/-- Plain characters are taken as they are. -/
private theorem plain_eq {cs : List Char} (hcs : ∀ c ∈ cs, Text.Visible c ∧ c ≠ '_') :
    ((Text.strip (String.ofList cs)).toList.map plainChar).filter (· != '_') = cs := by
  have hmap : cs.map plainChar = cs := by
    refine (List.map_congr_left fun c hc => ?_).trans (List.map_id' cs)
    obtain ⟨-, hhigh⟩ := (hcs c hc).1
    exact if_pos (by omega)
  have hfilter : cs.filter (· != '_') = cs := by
    rw [List.filter_eq_self]
    intro c hc
    simpa using (hcs c hc).2
  rw [(Text.trimmed_ofList fun c hc => (hcs c hc).1).strip_eq, String.toList_ofList, hmap, hfilter]

private theorem splitSign_signOf (negative : Bool) {c : Char} (hminus : c ≠ '-') (hplus : c ≠ '+') (rest : List Char) :
    Text.splitSign (signOf negative ++ c :: rest) = (negative, c :: rest) := by
  cases negative with
  | true => rfl
  | false =>
    change Text.splitSign (c :: rest) = _
    rw [Text.splitSign]
    · rintro _ ⟨⟩
      exact hminus rfl
    · rintro _ ⟨⟩
      exact hplus rfl

theorem ofText?_of_isLiteral {negative : Bool} {n : Nat} {e : Int} {cs : List Char} (hcs : Text.IsLiteral n e cs)
    (hwritable : (finite negative n e).Writable) :
    ofText? (String.ofList (signOf negative ++ cs)) = some (finite negative n e) := by
  obtain ⟨first, rest, hfirst, hlow, hhigh⟩ := hcs.exists_cons
  have hne {c : Char} (hc : c.toNat < 46 ∨ 57 < c.toNat) : first ≠ c := by
    rintro rfl
    omega
  have hplain : ∀ c ∈ signOf negative ++ cs, Text.Visible c ∧ c ≠ '_' :=
    List.forall_mem_append.2 ⟨plain_signOf negative, hcs.visible⟩
  have hsplit : Text.splitSign (signOf negative ++ cs) = (negative, cs) := by
    rw [hfirst]
    exact splitSign_signOf negative (hne (by decide)) (hne (by decide)) rest
  have hlower : cs.map Char.toLower = first :: rest.map Char.toLower := by
    have hcapital : ¬(first.val ≥ 'A'.val ∧ first.val ≤ 'Z'.val) := by
      intro hrange
      have hle : 65 ≤ first.toNat := hrange.1
      omega
    rw [hfirst, List.map_cons]
    congr 1
    exact dif_neg hcapital
  unfold ofText?
  rw [plain_eq hplain]
  dsimp only
  rw [hsplit]
  dsimp only
  rw [hlower, Text.literal?_eq hcs]
  -- No word begins with a digit or a point.
  split
  · next hword => exact absurd (List.cons.inj hword).1 (hne (by decide))
  · next hword => exact absurd (List.cons.inj hword).1 (hne (by decide))
  · next hword => exact absurd (List.cons.inj hword).1 (hne (by decide))
  · next hword => exact absurd (List.cons.inj hword).1 (hne (by decide))
  · exact finite?_eq_some_iff.2 ⟨rfl, hwritable⟩

theorem ofText?_infinity (negative : Bool) :
    ofText? (String.ofList (signOf negative ++ "Infinity".toList)) = some (infinite negative) := by
  cases negative with
  | true => decide +kernel
  | false => decide +kernel

/-- The word for a NaN. -/
def nanWord (signaling : Bool) : List Char := if signaling then ['s', 'N', 'a', 'N'] else ['N', 'a', 'N']

/-- The digits of a diagnostic number stand behind the word; there may be none. -/
theorem ofText?_nan (negative signaling : Bool) {payload : Nat} {digits : List Char}
    (hdigits : digits = [] ∧ payload = 0 ∨ Text.IsNumeral 10 digits payload) :
    ofText? (String.ofList (signOf negative ++ (nanWord signaling ++ digits))) =
      some (nan negative signaling payload) := by
  have hread : payload? (digits.map Char.toLower) = some payload := by
    rcases hdigits with ⟨rfl, rfl⟩ | hdigits
    · rfl
    · rw [hdigits.map_toLower, payload?, if_pos (List.all_eq_true.2 hdigits.isDigit_of_mem), hdigits.ofDigits_toNat]
  have hplain : ∀ c ∈ signOf negative ++ (nanWord signaling ++ digits), Text.Visible c ∧ c ≠ '_' := by
    have hword : (nanWord signaling).all (fun c => decide (Text.Visible c ∧ c ≠ '_')) = true := by
      cases signaling with
      | true => decide
      | false => decide
    refine List.forall_mem_append.2 ⟨plain_signOf negative, List.forall_mem_append.2 ⟨fun c hc => ?_, ?_⟩⟩
    · exact of_decide_eq_true (List.all_eq_true.1 hword c hc)
    · rcases hdigits with ⟨rfl, -⟩ | hdigits
      · exact nofun
      · have hvisible := (Text.IsLiteral.whole hdigits .none).visible
        rwa [List.append_nil] at hvisible
  unfold ofText?
  rw [plain_eq hplain]
  cases negative <;> cases signaling
  all_goals
    change (payload? (digits.map Char.toLower)).map _ = _
    rw [hread]
    rfl

end CilProbe.Decimal
