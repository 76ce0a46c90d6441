import CilProbe.Proofs.Signature.Failure
import CilProbe.Proofs.Signature.Writer
import Mathlib.Data.List.Basic

/-!
# Names between commas

Names of types hold commas themselves, between the brackets of type arguments, arrays and function pointers.  A name is
`Closed` if its commas stand in brackets and all of its brackets are closed.  Closed names can be joined by commas and
told apart again (`eq_of_intercalate_eq`).

What is made of closed names has a closed name (`made_closed`), and a type that is read from a signature is made of the
names to which the signature refers (`yields_readType`, `yields_readMethod`).
-/

namespace CilProbe.Signature

/-! ### Brackets -/

/-- How many brackets are open behind a character, of `depth` before it; none if the character closes a bracket that is
not open, or if it is a comma outside of all brackets. -/
def nestingAfter? : (depth : Nat) → Char → Option Nat
  | 0, c =>
    if c = '<' ∨ c = '[' ∨ c = '(' then some 1
    else if c = '>' ∨ c = ']' ∨ c = ')' ∨ c = ',' then none
    else some 0
  | depth + 1, c =>
    if c = '<' ∨ c = '[' ∨ c = '(' then some (depth + 2)
    else if c = '>' ∨ c = ']' ∨ c = ')' then some depth
    else some (depth + 1)

/-- How many brackets are open behind a text. -/
def nesting? (depth : Nat) (cs : List Char) : Option Nat := cs.foldlM nestingAfter? depth

/-- Brackets are closed where they should be, and commas stand in brackets. -/
def Balanced (cs : List Char) : Prop := nesting? 0 cs = some 0

instance : DecidablePred Balanced := fun _ => inferInstanceAs (Decidable (_ = _))

theorem nesting?_cons (depth : Nat) (c : Char) (cs : List Char) :
    nesting? depth (c :: cs) = (nestingAfter? depth c).bind (nesting? · cs) := rfl

theorem nesting?_append (depth : Nat) (cs ds : List Char) :
    nesting? depth (cs ++ ds) = (nesting? depth cs).bind (nesting? · ds) := List.foldlM_append

private theorem nestingAfter?_succ {depth left : Nat} {c : Char} (h : nestingAfter? depth c = some left) :
    nestingAfter? (depth + 1) c = some (left + 1) := by
  cases depth <;> grind [nestingAfter?]

/-- With more brackets around it a text leaves more of them open. -/
theorem nesting?_succ {depth left : Nat} {cs : List Char} (h : nesting? depth cs = some left) :
    nesting? (depth + 1) cs = some (left + 1) := by
  induction cs generalizing depth with
  | nil =>
    cases h
    rfl
  | cons c cs ih =>
    rw [nesting?_cons, Option.bind_eq_some_iff] at h
    obtain ⟨next, hnext, h⟩ := h
    rw [nesting?_cons, nestingAfter?_succ hnext]
    exact ih h

namespace Balanced

theorem nil : Balanced [] := rfl

theorem append {cs ds : List Char} (h : Balanced cs) (h' : Balanced ds) : Balanced (cs ++ ds) := by
  rw [Balanced, nesting?_append, h, Option.bind_some]
  exact h'

/-- Digits are neither brackets nor commas. -/
theorem of_isDigit {cs : List Char} (h : ∀ c ∈ cs, c.isDigit) : Balanced cs := by
  induction cs with
  | nil => exact nil
  | cons c cs ih =>
    have hother (d : Char) (hd : d.isDigit = false) : c ≠ d := by
      rintro rfl
      simp [h c] at hd
    have hc : nestingAfter? 0 c = some 0 := by simp (disch := decide) [nestingAfter?, hother]
    rw [Balanced, nesting?_cons, hc]
    exact ih fun d hd => h d (by simp [hd])

theorem toString (n : Nat) : Balanced (toString n).toList := by
  refine of_isDigit fun c hc => ?_
  rw [Nat.toString_eq_repr, Nat.toList_repr] at hc
  exact Nat.isDigit_of_mem_toDigits (by decide) (by decide) hc

end Balanced

theorem nesting?_replicate_comma (n : Nat) : nesting? 1 (List.replicate n ',') = some 1 := by
  induction n with
  | zero => rfl
  | succ n ih => rwa [List.replicate_succ, nesting?_cons]

/-! ### Joined names -/

private theorem intercalate_cons (cs : List Char) (texts : List (List Char)) :
    [','].intercalate (cs :: texts) = cs ++ texts.flatMap (',' :: ·) := by
  induction texts generalizing cs with
  | nil => simp
  | cons ds texts ih => rw [List.intercalate_cons_cons, ih, List.flatMap_cons]; simp

/-- Balanced texts may be joined by commas in brackets. -/
theorem nesting?_intercalate {texts : List (List Char)} (h : ∀ cs ∈ texts, Balanced cs) :
    nesting? 1 ([','].intercalate texts) = some 1 := by
  have hrest (texts : List (List Char)) (h : ∀ cs ∈ texts, Balanced cs) :
      nesting? 1 (texts.flatMap (',' :: ·)) = some 1 := by
    induction texts with
    | nil => rfl
    | cons cs texts ih =>
      rw [List.flatMap_cons, nesting?_append, nesting?_cons]
      show (nesting? 1 cs).bind _ = _
      rw [nesting?_succ (h cs (by simp)), Option.bind_some]
      exact ih fun cs hcs => h cs (by simp [hcs])
  cases texts with
  | nil => rfl
  | cons cs texts =>
    rw [intercalate_cons, nesting?_append, nesting?_succ (h cs (by simp)), Option.bind_some]
    exact hrest texts fun cs hcs => h cs (by simp [hcs])

/-- A balanced text cannot be continued by a comma and be balanced. -/
private theorem Balanced.eq_nil {cs ds rest : List Char} (hcs : Balanced cs) (h : Balanced (cs ++ ds))
    (hds : ∀ c ∈ (ds ++ rest).head?, c = ',') : ds = [] := by
  cases ds with
  | nil => rfl
  | cons d ds =>
    obtain rfl : d = ',' := hds d rfl
    rw [Balanced, nesting?_append, hcs] at h
    contradiction

/-- Balanced texts end where a comma follows. -/
private theorem eq_of_append_eq {cs ds rest rest' : List Char} (hcs : Balanced cs) (hds : Balanced ds)
    (hrest : ∀ c ∈ rest.head?, c = ',') (hrest' : ∀ c ∈ rest'.head?, c = ',') (h : cs ++ rest = ds ++ rest') :
    cs = ds ∧ rest = rest' := by
  rcases List.append_eq_append_iff.1 h with ⟨between, rfl, rfl⟩ | ⟨between, rfl, rfl⟩
  · obtain rfl := hcs.eq_nil hds hrest
    simp
  · obtain rfl := hds.eq_nil hcs hrest'
    simp

private theorem head?_flatMap_comma (texts : List (List Char)) :
    ∀ c ∈ (texts.flatMap (',' :: ·)).head?, c = ',' := by
  cases texts <;> simp

private theorem eq_of_flatMap_eq {texts texts' : List (List Char)} (h : ∀ cs ∈ texts, Balanced cs)
    (h' : ∀ cs ∈ texts', Balanced cs) (heq : texts.flatMap (',' :: ·) = texts'.flatMap (',' :: ·)) : texts = texts' := by
  induction texts generalizing texts' with
  | nil =>
    cases texts' with
    | nil => rfl
    | cons cs' texts' => simp at heq
  | cons cs texts ih =>
    cases texts' with
    | nil => simp at heq
    | cons cs' texts' =>
      simp only [List.flatMap_cons, List.cons_append, List.cons.injEq, true_and] at heq
      obtain ⟨rfl, hrest⟩ := eq_of_append_eq (h cs (by simp)) (h' cs' (by simp)) (head?_flatMap_comma texts)
        (head?_flatMap_comma texts') heq
      rw [ih (fun cs hcs => h cs (by simp [hcs])) (fun cs hcs => h' cs (by simp [hcs])) hrest]

/-- A text that can be told apart from others when it is joined with them by commas. -/
def Closed (text : String) : Prop := text ≠ "" ∧ Balanced text.toList

instance : DecidablePred Closed := fun _ => inferInstanceAs (Decidable (_ ∧ _))

/-- Closed texts that are joined by commas can be told apart. -/
theorem eq_of_intercalate_eq {texts texts' : List String} (h : ∀ t ∈ texts, Closed t) (h' : ∀ t ∈ texts', Closed t)
    (heq : ",".intercalate texts = ",".intercalate texts') : texts = texts' := by
  have hlists := congrArg String.toList heq
  have hcomma : ",".toList = [','] := rfl
  rw [String.toList_intercalate, String.toList_intercalate, hcomma] at hlists
  have hempty {t : String} {rest : List Char} (ht : Closed t) : t.toList ++ rest ≠ [] := by
    simpa using fun hnil => absurd hnil ht.1
  cases texts with
  | nil =>
    cases texts' with
    | nil => rfl
    | cons t' texts' =>
      rw [List.map_cons, intercalate_cons] at hlists
      exact absurd hlists.symm (hempty (h' t' (by simp)))
  | cons t texts =>
    cases texts' with
    | nil =>
      rw [List.map_cons, intercalate_cons] at hlists
      exact absurd hlists (hempty (h t (by simp)))
    | cons t' texts' =>
      rw [List.map_cons, List.map_cons, intercalate_cons, intercalate_cons] at hlists
      obtain ⟨hfirst, hrest⟩ := eq_of_append_eq (h t (by simp)).2 (h' t' (by simp)).2 (head?_flatMap_comma _)
        (head?_flatMap_comma _) hlists
      have hmaps : texts.map String.toList = texts'.map String.toList := by
        refine eq_of_flatMap_eq ?_ ?_ hrest
        · simpa using fun u hu => (h u (by simp [hu])).2
        · simpa using fun u hu => (h' u (by simp [hu])).2
      rw [String.toList_inj.1 hfirst, List.map_injective_iff.2 (fun _ _ => String.toList_injective) hmaps]

/-! ### Types made of closed names -/

/-- A property of types that types have if their parts have it, and if the names in them have the property `Q`. -/
structure Made {ν : Type} (Q : ν → Prop) (P : TypeSig ν → Prop) : Prop where
  primitive (type : Primitive) : P (.primitive type)
  pointer {target : TypeSig ν} : P target → P (.pointer target)
  byRef {target : TypeSig ν} : P target → P (.byRef target)
  named {isValueType : Bool} {name : ν} : Q name → P (.named isValueType name)
  typeVar (number : Nat) : P (.typeVar number)
  methodVar (number : Nat) : P (.methodVar number)
  vector {element : TypeSig ν} : P element → P (.vector element)
  array {element : TypeSig ν} {rank : Nat} {sizes lowerBounds : List Nat} : P element →
    P (.array element rank sizes lowerBounds)
  generic {isValueType : Bool} {name : ν} {arguments : List (TypeSig ν)} : Q name → (∀ t ∈ arguments, P t) →
    P (.generic isValueType name arguments)
  function {convention genericParameters : Nat} {result : TypeSig ν} {parameters : List (TypeSig ν)} : P result →
    (∀ t ∈ parameters, P t) → P (.function convention genericParameters result parameters)
  modified {isRequired : Bool} {modifier : ν} {type : TypeSig ν} : P type → P (.modified isRequired modifier type)
  pinned {type : TypeSig ν} : P type → P (.pinned type)
  sentinel {type : TypeSig ν} : P type → P (.sentinel type)

theorem Closed.append {text : String} (h : Closed text) {rest : String} (hrest : Balanced rest.toList) :
    Closed (text ++ rest) := by
  refine ⟨?_, ?_⟩
  · simp [h.1]
  · rw [String.toList_append]
    exact h.2.append hrest

/-- In brackets behind a closed text there may be commas. -/
theorem Closed.bracketed {text : String} (h : Closed text) {opening inner closing : String}
    (hopening : nesting? 0 opening.toList = some 1) (hinner : nesting? 1 inner.toList = some 1)
    (hclosing : nesting? 1 closing.toList = some 0) : Closed (text ++ opening ++ inner ++ closing) := by
  rw [String.append_assoc, String.append_assoc]
  refine h.append ?_
  rw [Balanced, String.toList_append, String.toList_append, nesting?_append, hopening, Option.bind_some,
    nesting?_append, hinner, Option.bind_some, hclosing]

private theorem nesting?_renderAll {types : List (TypeSig String)} (h : ∀ t ∈ types, Closed t.render) :
    nesting? 1 (",".intercalate (TypeSig.renderAll types)).toList = some 1 := by
  rw [String.toList_intercalate, TypeSig.renderAll_eq]
  refine nesting?_intercalate ?_
  simpa using fun t ht => (h t ht).2

/-- A type that is made of closed names has a closed name. -/
theorem made_closed : Made Closed (fun t => Closed t.render) where
  primitive type := by cases type <;> decide
  pointer h := by
    rw [TypeSig.render]
    exact h.append (by decide)
  byRef h := by
    rw [TypeSig.render]
    exact h.append (by decide)
  named h := by
    rw [TypeSig.render]
    exact h
  typeVar number := by
    rw [TypeSig.render]
    exact Closed.append (by decide) (.toString number)
  methodVar number := by
    rw [TypeSig.render]
    exact Closed.append (by decide) (.toString number)
  vector h := by
    rw [TypeSig.render]
    exact h.append (by decide)
  array h := by
    rw [TypeSig.render]
    exact h.bracketed (by decide) (by rw [String.toList_ofList]; exact nesting?_replicate_comma _) (by decide)
  generic h hs := by
    rw [TypeSig.render]
    exact h.bracketed (by decide) (nesting?_renderAll hs) (by decide)
  function h hs := by
    rw [TypeSig.render]
    exact (Closed.append (by decide) h.2).bracketed (by decide) (nesting?_renderAll hs) (by decide)
  modified h := by rwa [TypeSig.render]
  pinned h := by rwa [TypeSig.render]
  sentinel h := by rwa [TypeSig.render]

/-! ### Types that are read -/

section

variable {ε ν α : Type} {P : α → Prop}

private theorem yields_readTimes {step : Step ε α} (hstep : ∀ c, Yields (P ·.1) (step c)) (count : Nat) (c : Cursor) :
    Yields (fun r => ∀ a ∈ r.1, P a) (readTimes step count c) := by
  induction count generalizing c with
  | zero => exact .pure (by simp)
  | succ count ih =>
    refine (hstep c).bind fun (a, c) ha => (ih c).bind fun (as, c) has => .pure ?_
    simpa using ⟨ha, has⟩

private theorem yields_readCounted {step : Step ε α} (hstep : ∀ c, Yields (P ·.1) (step c)) (c : Cursor) :
    Yields (fun r => ∀ a ∈ r.1, P a) (readCounted step c) :=
  (Yields.trivial _).bind fun _ _ => yields_readTimes hstep _ _

private theorem yields_readMethodWith {P : TypeSig ν → Prop} {readType : Step ε (TypeSig ν)}
    (htype : ∀ c, Yields (P ·.1) (readType c)) (c : Cursor) :
    Yields (fun r => P r.1.result ∧ ∀ t ∈ r.1.parameters, P t) (readMethodWith readType c) := by
  rw [readMethodWith]
  split
  · exact .error _
  · dsimp only
    -- The number of type parameters is read or zero; what follows is the same.
    split <;>
    · refine (Yields.trivial _).bind fun _ _ => (Yields.trivial _).bind fun _ _ => ?_
      exact (htype _).bind fun _ hresult => (yields_readTimes htype _ _).bind fun _ hparameters =>
        .pure ⟨hresult, hparameters⟩

variable {Q : ν → Prop} {resolve : Metadata.Table → Nat → Except ε ν}
  (hresolve : ∀ table rid, Yields Q (resolve table rid))
include hresolve

private theorem yields_reference (c : Cursor) : Yields (Q ·.1) (Reading.reference (orUnnamed resolve) c) := by
  refine (Yields.trivial _).bind fun (value, c) _ => ?_
  dsimp only
  split
  · exact .error _
  · exact ((hresolve _ _).mapError _).bind fun _ hname => .pure hname

/-- A type that is read is made of the names to which the signature refers. -/
theorem yields_readTypeWithin {P : TypeSig ν → Prop} (hP : Made Q P) (depth : Nat) (c : Cursor) :
    Yields (P ·.1) (readTypeWithin resolve depth c) := by
  rw [readTypeWithin]
  induction depth generalizing c with
  | zero =>
    unfold Reading.typeWithin
    exact .error _
  | succ depth ih =>
    have hreference (c : Cursor) := yields_reference hresolve c
    unfold Reading.typeWithin
    cases c.rest with
    | nil => exact .error _
    | cons first rest =>
      dsimp only
      split
      · exact .pure (hP.primitive _)
      -- One case for each element code, in the order of the reader.
      split
      · exact (hreference _).bind fun _ _ => (ih _).bind fun _ ht => .pure (hP.modified ht)
      · exact (hreference _).bind fun _ _ => (ih _).bind fun _ ht => .pure (hP.modified ht)
      · exact (ih _).bind fun _ ht => .pure (hP.pinned ht)
      · exact (ih _).bind fun _ ht => .pure (hP.sentinel ht)
      · exact (ih _).bind fun _ ht => .pure (hP.pointer ht)
      · exact (ih _).bind fun _ ht => .pure (hP.byRef ht)
      · exact (hreference _).bind fun _ hname => .pure (hP.named hname)
      · exact (hreference _).bind fun _ hname => .pure (hP.named hname)
      · exact (Yields.trivial _).bind fun _ _ => .pure (hP.typeVar _)
      · exact (Yields.trivial _).bind fun _ _ => .pure (hP.methodVar _)
      · exact (ih _).bind fun _ ht => .pure (hP.vector ht)
      · exact (ih _).bind fun _ ht => (Yields.trivial _).bind fun _ _ => (Yields.trivial _).bind fun _ _ =>
          (Yields.trivial _).bind fun _ _ => .pure (hP.array ht)
      · exact (hreference _).bind fun _ hname => (yields_readCounted ih _).bind fun _ hts => .pure (hP.generic hname hts)
      · exact (yields_readMethodWith ih _).bind fun _ hm => .pure (hP.function hm.1 hm.2)
      · exact .error _

theorem yields_readType {P : TypeSig ν → Prop} (hP : Made Q P) (c : Cursor) :
    Yields (P ·.1) (readType resolve c) := yields_readTypeWithin hresolve hP _ c

theorem yields_readMethod {P : TypeSig ν → Prop} (hP : Made Q P) (c : Cursor) :
    Yields (fun r => P r.1.result ∧ ∀ t ∈ r.1.parameters, P t) (readMethod resolve c) :=
  yields_readMethodWith (yields_readTypeWithin hresolve hP _) c

end

end CilProbe.Signature
