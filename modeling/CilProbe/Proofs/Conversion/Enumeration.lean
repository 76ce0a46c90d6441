import CilProbe.Proofs.Conversion.Parameter

/-!
# Members of enumerations that are named

A text names the first member that is called like it, where neither the case of letters nor blanks around the text
count (`Conversion.enumMember_of_first`).  So a member that is declared behind another one of the same letters cannot
be had by its own name (`Synthesis.convert_shadowed`), and every other member can (`Synthesis.convert_members`).
-/

namespace CilProbe

namespace Conversion

variable {members before after : List (String × Value)} {text name : String} {v : Value}

/-- The value of the first member whose name is this one but for the case of letters. -/
def FirstNamed (members : List (String × Value)) (name : String) (v : Value) : Prop :=
  ∃ before other after, members = before ++ (other, v) :: after ∧ Text.lower other = Text.lower name ∧
    ∀ m ∈ before, Text.lower m.1 ≠ Text.lower name

theorem enumMember_cons (m : String × Value) (members : List (String × Value)) (text : String) :
    enumMember (m :: members) text =
      if Text.lower m.1 = Text.lower (Text.strip text) then .ok m.2 else enumMember members text := by
  unfold enumMember
  dsimp only
  rw [List.find?_cons]
  by_cases h : Text.lower m.1 = Text.lower (Text.strip text)
  · simp [h]
  · simp [h]

theorem enumMember_of_first (hname : Text.lower name = Text.lower (Text.strip text))
    (hbefore : ∀ m ∈ before, Text.lower m.1 ≠ Text.lower (Text.strip text)) :
    enumMember (before ++ (name, v) :: after) text = .ok v := by
  induction before with
  | nil => rw [List.nil_append, enumMember_cons, if_pos hname]
  | cons m before ih =>
    have hm := hbefore m (by simp)
    rw [List.cons_append, enumMember_cons, if_neg hm]
    exact ih fun m hm => hbefore m (by simp [hm])

/-- Texts that name no member are refused. -/
theorem enumMember_of_forall_ne (h : ∀ m ∈ members, Text.lower m.1 ≠ Text.lower (Text.strip text)) :
    enumMember members text = .error (.noMember text) := by
  induction members with
  | nil => rfl
  | cons m members ih =>
    have hm := h m (by simp)
    rw [enumMember_cons, if_neg hm]
    exact ih fun m hm => h m (by simp [hm])

/-- Whatever member has a name, one of them is the first. -/
theorem exists_firstNamed (h : (name, v) ∈ members) : ∃ w, FirstNamed members name w := by
  induction members with
  | nil => simp at h
  | cons m members ih =>
    by_cases hm : Text.lower m.1 = Text.lower name
    · exact ⟨m.2, [], m.1, members, rfl, hm, by simp⟩
    · have hmem : (name, v) ∈ members := by
        rcases List.mem_cons.1 h with rfl | hmem
        · exact absurd rfl hm
        · exact hmem
      obtain ⟨w, before, other, after, rfl, hother, hbefore⟩ := ih hmem
      refine ⟨w, m :: before, other, after, rfl, hother, ?_⟩
      intro m' hm'
      rcases List.mem_cons.1 hm' with rfl | hm'
      · exact hm
      · exact hbefore m' hm'

theorem enumMember_of_firstNamed (hname : Text.Trimmed name) (h : FirstNamed members name v) :
    enumMember members name = .ok v := by
  obtain ⟨before, other, after, rfl, hother, hbefore⟩ := h
  apply enumMember_of_first
  · rw [hname.strip_eq]
    exact hother
  · rw [hname.strip_eq]
    exact hbefore

end Conversion

namespace Synthesis

open Conversion (FirstNamed)

variable {τ μ σ : Type} {h : Host τ μ σ} {p : Parameter τ} {members : List (String × Value)} {s s' s'' : Session σ}

/-- Which values the names of an enumeration stand for.  The exact name of a member gives the value of the first member
that is called so but for the case of letters; that is its own value unless such a member is declared in front of it.
Texts that name no member are refused. -/
theorem convert_members (hkind : (h.typeKind p.type).run s = (.ok .enum, s'))
    (hmembers : (h.enumMembers p.type).run s' = (.ok members, s'')) :
    (∀ name v, (name, v) ∈ members → Text.Trimmed name →
      ∃ w, FirstNamed members name w ∧ (convert h p name).run s = (.ok w, s'')) ∧
    (∀ before name v after, members = before ++ (name, v) :: after → Text.Trimmed name →
      (∀ m ∈ before, Text.lower m.1 ≠ Text.lower name) → (convert h p name).run s = (.ok v, s'')) ∧
    ∀ text, (∀ m ∈ members, Text.lower m.1 ≠ Text.lower (Text.strip text)) → (convert h p text).run s =
      (.error (.fault (.conversion ⟨p.name, p.typeName, some text, .noMember text⟩)), s'') := by
  have hrun := run_convert_of_members hkind hmembers
  refine ⟨?_, ?_, ?_⟩
  · intro name v hmem hname
    obtain ⟨w, hw⟩ := Conversion.exists_firstNamed hmem
    refine ⟨w, hw, ?_⟩
    rw [hrun, Conversion.enumMember_of_firstNamed hname hw]
    rfl
  · intro before name v after hmem hname hbefore
    have hfirst : FirstNamed members name v := ⟨before, name, after, hmem, rfl, hbefore⟩
    rw [hrun, Conversion.enumMember_of_firstNamed hname hfirst]
    rfl
  · intro text htext
    rw [hrun, Conversion.enumMember_of_forall_ne htext]
    rfl

/-! ### Names of the same letters -/

private def letters : List (String × Value) := [("a", .int 1), ("A", .int 2), ("b", .int 3)]

private def letterHost : Host Unit Unit Unit :=
  (TypeGraph.single "Sample.Letter" .enum letters).host (.fault default)

private def letterParameter : Parameter Unit := singleParameter "letter" "Sample.Letter"

theorem convert_members_letters :
    ((convert letterHost letterParameter "a").run (Session.start ()) = (.ok (.int 1), Session.start ()) ∧
      (convert letterHost letterParameter "b").run (Session.start ()) = (.ok (.int 3), Session.start ())) ∧
      (convert letterHost letterParameter " C ").run (Session.start ()) =
        (.error (.fault (.conversion ⟨"letter", "Sample.Letter", some " C ", .noMember " C "⟩)), Session.start ()) := by
  have hall := @convert_members _ _ _ letterHost letterParameter letters (Session.start ()) _ _ rfl rfl
  refine ⟨⟨hall.2.1 [] "a" _ _ rfl (by decide) (by simp), ?_⟩, ?_⟩
  · exact hall.2.1 [("a", .int 1), ("A", .int 2)] "b" _ _ rfl (by decide) (by decide)
  · exact hall.2.2 " C " (by decide)

/-- The names are different and have no blanks around them, and yet the name of the second member gives the value of the
first. -/
theorem convert_shadowed :
    (letters.map Prod.fst).Nodup ∧ (∀ m ∈ letters, Text.Trimmed m.1) ∧ ("A", .int 2) ∈ letters ∧
      (convert letterHost letterParameter "A").run (Session.start ()) = (.ok (.int 1), Session.start ()) ∧
      Value.int 1 ≠ .int 2 := by
  have hread : Conversion.enumMember letters "A" = .ok (.int 1) :=
    @Conversion.enumMember_of_first [] _ "A" "a" _ (by decide) (by simp)
  have hrun := @run_convert_of_members _ _ _ letterHost letterParameter (Session.start ()) _ _ letters rfl rfl "A"
  refine ⟨by decide, by decide, by simp [letters], ?_, by simp⟩
  rw [hrun, hread]
  rfl

end Synthesis

end CilProbe
