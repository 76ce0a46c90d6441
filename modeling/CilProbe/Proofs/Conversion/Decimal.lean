import CilProbe.Proofs.Conversion.Integer

/-!
# Decimals that are written and read

The text of a decimal has its digits, positionally or with an exponent, so that a literal of just this coefficient and
exponent is read (`Decimal.isLiteral_magnitudeText`).  The decimals that can be read at all are thus those whose
exponents stay within the bounds, and each is read from its own text (`Decimal.ofText?_toText`).
-/

namespace CilProbe

namespace Decimal

variable {n : Nat} {digits : String}

theorem isNumeral_toString (n : Nat) : Text.IsNumeral 10 (toString n).toList n := by
  rw [Nat.toString_eq_repr, Nat.toList_repr]
  exact Text.isNumeral_toDigits (by decide) (by decide) n

/-- A point takes the digits behind it off the exponent; zeros are filled in where it stands in front of all digits. -/
theorem isLiteral_pointed (hdigits : Text.IsNumeral 10 digits.toList n) {places e : Int}
    (hplaces : places ≤ digits.length) {exp : List Char} (hexp : Text.IsExponent e exp) :
    Text.IsLiteral n (e + places - digits.length) ((pointed digits places).toList ++ exp) := by
  have hcount := String.length_toList (s := digits)
  by_cases hzero : places ≤ 0
  · have hall : Text.IsNumeral 10 (['0'] ++ (List.replicate (-places).toNat '0' ++ digits.toList)) n :=
      (hdigits.zeros _).zero
    have htext : (pointed digits places).toList ++ exp =
        ['0'] ++ '.' :: ((List.replicate (-places).toNat '0' ++ digits.toList) ++ exp) := by
      rw [pointed, if_pos hzero]
      simp [zeros]
    rw [htext]
    refine (Text.IsLiteral.pointed hall hexp).of_eq ?_
    simp only [List.length_append, List.length_replicate]
    omega
  · have hall : Text.IsNumeral 10 (digits.toList.take places.toNat ++ digits.toList.drop places.toNat) n := by
      rwa [List.take_append_drop]
    have htext : (pointed digits places).toList ++ exp =
        digits.toList.take places.toNat ++ '.' :: (digits.toList.drop places.toNat ++ exp) := by
      rw [pointed, if_neg hzero]
      simp
    rw [htext]
    refine (Text.IsLiteral.pointed hall hexp).of_eq ?_
    rw [List.length_drop]
    omega

private theorem isExponent_mark (places : Int) :
    Text.IsExponent (places - 1) ((if places < 1 then "E-" else "E+").toList ++
      (toString (places - 1).natAbs).toList) := by
  have hdigits := isNumeral_toString (places - 1).natAbs
  by_cases hplaces : places < 1
  · rw [if_pos hplaces]
    exact .marked (.inr rfl) (.minus (by omega)) hdigits
  · rw [if_neg hplaces]
    exact .marked (.inr rfl) (.plus (by omega)) hdigits

/-- Wherever the digits stand, they write the coefficient with its exponent. -/
theorem isLiteral_magnitudeText (n : Nat) (e : Int) : Text.IsLiteral n e (magnitudeText n e).toList := by
  have hdigits := isNumeral_toString n
  unfold magnitudeText
  dsimp only
  split
  · next hzero =>
    have hliteral := Text.IsLiteral.whole hdigits .none
    rwa [List.append_nil, ← hzero] at hliteral
  · split
    · next hplaces =>
      have hliteral := @isLiteral_pointed _ _ hdigits (e + (toString n).length) 0 (by omega) [] .none
      rw [List.append_nil] at hliteral
      exact hliteral.of_eq (by omega)
    · have hexp := isExponent_mark (e + (toString n).length)
      rw [String.toList_append, String.toList_append, List.append_assoc]
      split
      · next hone => exact (Text.IsLiteral.whole hdigits hexp).of_eq (by omega)
      · next hmany =>
        have hne := List.length_pos_iff.2 hdigits.ne_nil
        rw [String.length_toList] at hne
        exact (isLiteral_pointed hdigits (by omega) hexp).of_eq (by omega)

private theorem sign_append (negative : Bool) (text : String) :
    (if negative then "-" else "") ++ text = String.ofList (signOf negative ++ text.toList) := by
  rw [← String.toList_inj]
  cases negative with
  | true => simp [signOf]
  | false => simp [signOf]

/-- What can be read at all is read from its own text. -/
theorem ofText?_toText {d : Decimal} (h : d.Writable) : ofText? d.toText = some d := by
  cases d with
  | finite negative n e =>
    rw [toText, sign_append]
    exact ofText?_of_isLiteral (isLiteral_magnitudeText n e) h
  | infinite negative =>
    rw [toText, sign_append]
    exact ofText?_infinity negative
  | nan negative signaling payload =>
    have hword : (if signaling then "sNaN" else "NaN").toList = nanWord signaling := by
      cases signaling <;> rfl
    rw [toText, String.append_assoc, sign_append, String.toList_append, hword]
    apply ofText?_nan
    split
    · next hzero => exact .inl ⟨rfl, hzero⟩
    · exact .inr (isNumeral_toString payload)

end Decimal

end CilProbe
