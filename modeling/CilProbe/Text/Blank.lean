import CilProbe.Text.CodePoints

/-!
# Blanks

White space in the sense of Unicode 14 together with the four information separators U+001C to U+001F.
-/

namespace CilProbe.Text

/-- Where the blank code points begin and end. -/
private def blankChanges : List Nat :=
  [0x9, 0xE, 0x1C, 0x21, 0x85, 0x86, 0xA0, 0xA1, 0x1680, 0x1681, 0x2000, 0x200B, 0x2028, 0x202A, 0x202F, 0x2030,
   0x205F, 0x2060, 0x3000, 0x3001]

def isBlank (c : Char) : Bool := within blankChanges c.toNat

theorem Visible.not_isBlank {c : Char} (h : Visible c) : isBlank c = false := by
  obtain ⟨hlow, hhigh⟩ := h
  rw [isBlank, blankChanges, within_of_le (by omega), within_of_le (by omega), within_of_le (by omega),
    within_of_le (by omega), within_of_lt (by omega)]
  rfl

/-- The text without the blanks at both ends. -/
def strip (s : String) : String :=
  String.ofList (((s.toList.dropWhile isBlank).reverse.dropWhile isBlank).reverse)

theorem dropWhile_append_eq {p : Char → Bool} {before cs : List Char} (hbefore : ∀ c ∈ before, p c = true)
    (hcs : ∀ c, cs.head? = some c → p c = false) : (before ++ cs).dropWhile p = cs := by
  rw [List.dropWhile_append_of_pos hbefore]
  cases cs with
  | nil => rfl
  | cons c cs => exact List.dropWhile_cons_of_neg (Bool.eq_false_iff.1 (hcs c rfl))

theorem takeWhile_append_eq {p : Char → Bool} {before cs : List Char} (hbefore : ∀ c ∈ before, p c = true)
    (hcs : ∀ c, cs.head? = some c → p c = false) : (before ++ cs).takeWhile p = before := by
  rw [List.takeWhile_append_of_pos hbefore]
  cases cs with
  | nil => simp
  | cons c cs => simp [hcs c rfl]

/-- Only the blanks around a visible text are taken off. -/
theorem strip_eq {s : String} {before cs after : List Char} (hs : s.toList = before ++ (cs ++ after))
    (hbefore : ∀ c ∈ before, isBlank c = true) (hcs : ∀ c ∈ cs, Visible c) (hafter : ∀ c ∈ after, isBlank c = true)
    (hne : cs ≠ []) : strip s = String.ofList cs := by
  have hfront : ∀ c, (cs ++ after).head? = some c → isBlank c = false := by
    cases cs with
    | nil => exact absurd rfl hne
    | cons first cs =>
      rintro c ⟨⟩
      exact (hcs first List.mem_cons_self).not_isBlank
  have hback : ∀ c, cs.reverse.head? = some c → isBlank c = false := fun c hc =>
    (hcs c (List.mem_reverse.1 (List.mem_of_head? hc))).not_isBlank
  have hafter' : ∀ c ∈ after.reverse, isBlank c = true := fun c hc => hafter c (List.mem_reverse.1 hc)
  rw [strip, hs, dropWhile_append_eq hbefore hfront, List.reverse_append, dropWhile_append_eq hafter' hback,
    List.reverse_reverse]

/-- A text that neither begins nor ends with a blank. -/
def Trimmed (s : String) : Prop := s.toList.head?.any isBlank = false ∧ s.toList.getLast?.any isBlank = false

instance (s : String) : Decidable (Trimmed s) := inferInstanceAs (Decidable (_ ∧ _))

theorem Trimmed.strip_eq {s : String} (h : Trimmed s) : strip s = s := by
  have hfront : ∀ c, s.toList.head? = some c → isBlank c = false := by
    intro c hc
    simpa [hc] using h.1
  have hback : ∀ c, s.toList.reverse.head? = some c → isBlank c = false := by
    intro c hc
    rw [List.head?_reverse] at hc
    simpa [hc] using h.2
  have hdrop := @dropWhile_append_eq isBlank [] s.toList nofun hfront
  have hdrop' := @dropWhile_append_eq isBlank [] s.toList.reverse nofun hback
  rw [List.nil_append] at hdrop hdrop'
  rw [strip, hdrop, hdrop', List.reverse_reverse, String.ofList_toList]

theorem trimmed_ofList {cs : List Char} (hcs : ∀ c ∈ cs, Visible c) : Trimmed (String.ofList cs) := by
  have hblank : ∀ c ∈ cs, isBlank c = false := fun c hc => (hcs c hc).not_isBlank
  unfold Trimmed
  rw [String.toList_ofList]
  constructor
  · cases hc : cs.head? with
    | none => rfl
    | some c => exact hblank c (List.mem_of_head? hc)
  · cases hc : cs.getLast? with
    | none => rfl
    | some c => exact hblank c (List.mem_of_getLast? hc)

end CilProbe.Text
