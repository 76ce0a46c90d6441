import CilProbe.Proofs.Signature.Writer
import Mathlib.Data.List.Basic

/-!
# Marks in names

In the name of a type a generic instance shows by `<` and a type parameter by `!` (`Mark`).  But a type may refer to
another one whose name has these characters itself.  So a name has the character of a mark if and only if there is such
an element in the type or such a character in a name that it shows (`mem_render_iff`).
-/

namespace CilProbe.Signature

/-- The elements of types that show in names by a character of their own. -/
inductive Mark where
  | genericInstance
  | typeParameter
  deriving DecidableEq

def Mark.char : Mark → Char
  | genericInstance => '<'
  | typeParameter => '!'

namespace TypeSig

variable {ν ν' : Type}

mutual

/-- Whether there is such an element in the type, in which what it refers to is left open. -/
def has (mark : Mark) : TypeSig ν → Bool
  | primitive _ | named _ _ => false
  | typeVar _ | methodVar _ => mark = .typeParameter
  | pointer type | byRef type | vector type | array type _ _ _ | modified _ _ type | pinned type | sentinel type =>
    type.has mark
  | generic _ _ arguments => mark = .genericInstance || anyHas mark arguments
  | function _ _ result parameters => result.has mark || anyHas mark parameters

def anyHas (mark : Mark) : List (TypeSig ν) → Bool
  | [] => false
  | t :: ts => t.has mark || anyHas mark ts

end

mutual

/-- What the name of a type shows of what the type refers to; these are all references but the modifiers. -/
def displayed : TypeSig ν → List ν
  | primitive _ | typeVar _ | methodVar _ => []
  | named _ name => [name]
  | pointer type | byRef type | vector type | array type _ _ _ | modified _ _ type | pinned type | sentinel type =>
    type.displayed
  | generic _ name arguments => name :: allDisplayed arguments
  | function _ _ result parameters => result.displayed ++ allDisplayed parameters

def allDisplayed : List (TypeSig ν) → List ν
  | [] => []
  | t :: ts => t.displayed ++ allDisplayed ts

end

theorem anyHas_iff {mark : Mark} {ts : List (TypeSig ν)} : anyHas mark ts = true ↔ ∃ t ∈ ts, t.has mark = true := by
  induction ts with
  | nil => simp [anyHas]
  | cons t ts ih => simp [anyHas, ih]

theorem mem_allDisplayed {x : ν} {ts : List (TypeSig ν)} : x ∈ allDisplayed ts ↔ ∃ t ∈ ts, x ∈ t.displayed := by
  induction ts with
  | nil => simp [allDisplayed]
  | cons t ts ih => simp [allDisplayed, ih]

theorem displayed_subset (t : TypeSig ν) : t.displayed ⊆ t.references := by
  have hall {ts : List (TypeSig ν)} (h : ∀ t ∈ ts, t.displayed ⊆ t.references) :
      allDisplayed ts ⊆ allReferences ts := by
    intro x hx
    obtain ⟨t, ht, hx⟩ := mem_allDisplayed.1 hx
    exact mem_allReferences.2 ⟨t, ht, h t ht hx⟩
  induction t using inductionOn with
  | primitive | named | typeVar | methodVar => exact List.Subset.refl _
  | pointer _ ih | byRef _ ih | vector _ ih | array _ _ _ _ ih | pinned _ ih | sentinel _ ih => exact ih
  | modified _ modifier _ ih => exact List.subset_cons_of_subset modifier ih
  | generic _ _ _ ih => exact List.cons_subset_cons _ (hall ih)
  | function _ _ _ _ ihresult ihparameters =>
    exact List.append_subset.2 ⟨List.subset_append_of_subset_left _ ihresult,
      List.subset_append_of_subset_right _ (hall ihparameters)⟩

theorem displayed_map (f : ν → ν') (t : TypeSig ν) : (t.map f).displayed = t.displayed.map f := by
  have hall {ts : List (TypeSig ν)} (h : ∀ t ∈ ts, (t.map f).displayed = t.displayed.map f) :
      allDisplayed (mapAll f ts) = (allDisplayed ts).map f := by
    induction ts with
    | nil => rfl
    | cons t ts ih =>
      rw [mapAll, allDisplayed, allDisplayed, List.map_append, h t (by simp), ih fun t ht => h t (by simp [ht])]
  induction t using inductionOn with
  | primitive | named | typeVar | methodVar => rfl
  | pointer _ ih | byRef _ ih | vector _ ih | array _ _ _ _ ih | modified _ _ _ ih | pinned _ ih | sentinel _ ih =>
    exact ih
  | generic _ name _ ih => exact congrArg (f name :: ·) (hall ih)
  | function _ _ result parameters ihresult ihparameters =>
    rw [map, displayed, displayed, ihresult, hall ihparameters, List.map_append]

theorem has_map (mark : Mark) (f : ν → ν') (t : TypeSig ν) : (t.map f).has mark = t.has mark := by
  have hall {ts : List (TypeSig ν)} (h : ∀ t ∈ ts, (t.map f).has mark = t.has mark) :
      anyHas mark (mapAll f ts) = anyHas mark ts := by
    induction ts with
    | nil => rfl
    | cons t ts ih => rw [mapAll, anyHas, anyHas, h t (by simp), ih fun t ht => h t (by simp [ht])]
  induction t using inductionOn with
  | primitive | named | typeVar | methodVar => rfl
  | pointer _ ih | byRef _ ih | vector _ ih | array _ _ _ _ ih | modified _ _ _ ih | pinned _ ih | sentinel _ ih =>
    exact ih
  | generic _ _ _ ih => exact congrArg _ (hall ih)
  | function _ _ _ _ ihresult ihparameters => rw [map, has, has, ihresult, hall ihparameters]

/-! ### Characters of names -/

theorem notMem_toString {c : Char} (hc : c.isDigit = false) (n : Nat) : c ∉ (toString n).toList := by
  rw [Nat.toString_eq_repr, Nat.toList_repr]
  intro hmem
  have hdigit := Nat.isDigit_of_mem_toDigits (by decide) (by decide) hmem
  rw [hc] at hdigit
  contradiction

private theorem mem_intercalate_iff {c : Char} (hc : c ≠ ',') (texts : List String) :
    c ∈ (",".intercalate texts).toList ↔ ∃ text ∈ texts, c ∈ text.toList := by
  rw [String.toList_intercalate, show ",".toList = [','] from rfl]
  induction texts with
  | nil => simp
  | cons text texts ih =>
    cases texts with
    | nil => simp
    | cons text' texts =>
      rw [List.map_cons] at ih
      rw [List.map_cons, List.map_cons, List.intercalate_cons_cons, List.mem_append, List.mem_append, ih]
      simp [hc]

private theorem mem_renderAll_iff {mark : Mark} {ts : List (TypeSig String)}
    (h : ∀ t ∈ ts, mark.char ∈ t.render.toList ↔ t.has mark = true ∨ ∃ name ∈ t.displayed, mark.char ∈ name.toList) :
    mark.char ∈ (",".intercalate (renderAll ts)).toList ↔
      anyHas mark ts = true ∨ ∃ name ∈ allDisplayed ts, mark.char ∈ name.toList := by
  rw [mem_intercalate_iff (by cases mark <;> decide), renderAll_eq, anyHas_iff]
  simp only [List.mem_map, exists_exists_and_eq_and, mem_allDisplayed]
  constructor
  · rintro ⟨t, ht, hmem⟩
    rcases (h t ht).1 hmem with hhas | ⟨name, hname, hmem⟩
    · exact .inl ⟨t, ht, hhas⟩
    · exact .inr ⟨name, ⟨t, ht, hname⟩, hmem⟩
  · rintro (⟨t, ht, hhas⟩ | ⟨name, ⟨t, ht, hname⟩, hmem⟩)
    · exact ⟨t, ht, (h t ht).2 (.inl hhas)⟩
    · exact ⟨t, ht, (h t ht).2 (.inr ⟨name, hname, hmem⟩)⟩

/-- A name has the character of a mark if and only if the type has such an element or shows a name with the
character. -/
theorem mem_render_iff (mark : Mark) (t : TypeSig String) :
    mark.char ∈ t.render.toList ↔ t.has mark = true ∨ ∃ name ∈ t.displayed, mark.char ∈ name.toList := by
  -- No other character that is written is one of a mark.
  have hother (text : String) (h : '<' ∉ text.toList ∧ '!' ∉ text.toList) : mark.char ∉ text.toList := by
    cases mark
    · exact h.1
    · exact h.2
  have hdigits (number : Nat) : mark.char ∉ (toString number).toList := notMem_toString (by cases mark <;> rfl) number
  induction t using inductionOn with
  | primitive type => cases type <;> cases mark <;> decide
  | named _ name => simp [render, has, displayed]
  | typeVar number =>
    rw [render, String.toList_append, List.mem_append, or_iff_left (hdigits number)]
    cases mark <;> simp [has, displayed, Mark.char]
  | methodVar number =>
    rw [render, String.toList_append, List.mem_append, or_iff_left (hdigits number)]
    cases mark <;> simp [has, displayed, Mark.char]
  | pointer _ ih | byRef _ ih | vector _ ih =>
    rw [render, String.toList_append, List.mem_append, or_iff_left (hother _ (by decide))]
    exact ih
  | array element rank _ _ ih =>
    have hcommas : mark.char ∉ (String.ofList (List.replicate (rank - 1) ',')).toList := by
      rw [String.toList_ofList, List.mem_replicate]
      cases mark <;> simp [Mark.char]
    rw [render, String.toList_append, String.toList_append, String.toList_append]
    simp only [List.mem_append, hother "[" (by decide), hother "]" (by decide), hcommas, or_false]
    exact ih
  | modified _ _ _ ih | pinned _ ih | sentinel _ ih => exact ih
  | generic _ name arguments ih =>
    have hbracket : mark.char ∈ "<".toList ↔ mark = .genericInstance := by cases mark <;> decide
    simp only [render, String.toList_append, List.mem_append, hother ">" (by decide), hbracket,
      mem_renderAll_iff ih, has, displayed, Bool.or_eq_true, decide_eq_true_eq, List.exists_mem_cons_iff, or_false]
    tauto
  | function _ _ result parameters ihresult ihparameters =>
    simp only [render, String.toList_append, List.mem_append, hother "method " (by decide),
      hother " *(" (by decide), hother ")" (by decide), ihresult,
      mem_renderAll_iff ihparameters, has, displayed, Bool.or_eq_true, false_or, or_false, or_and_right, exists_or]
    exact or_or_or_comm

end TypeSig

end CilProbe.Signature
