import CilProbe.Proofs.Signature.RoundTrip
import CilProbe.TypeName
import Mathlib.Data.List.Basic
import Mathlib.Data.List.TakeWhile

/-!
# Type arguments in names

Type arguments are put into the name of a type, not into the type: in the text each `!!` with a number is replaced.  The
result is the name of the type with the arguments in it, and with the names in it changed in the same way
(`substitute_render`); they stay as they are if they have no `!` (`substitute_nameWith`).  What the arguments refer to
does not matter, because the text of an argument is not looked at again.

The induction over types needs to know what follows a text.  A type parameter at its end must not go on or begin there,
so nothing is said about what begins with a digit or with `!` (`Rewrites`).
-/

namespace CilProbe

namespace TypeName

/-! ### Numbers -/

private theorem digit?_eq_of_isDigit {c : Char} (h : c.isDigit) : Text.digit? c = some (c.toNat - '0'.toNat) := by
  have hascii : ∀ k : Fin 10, Text.digit? (Char.ofNat (48 + k)) = some k.val := by decide
  have hrange : 48 ≤ c.toNat ∧ c.toNat ≤ 57 := by
    rw [Char.isDigit, Bool.and_eq_true, decide_eq_true_eq, decide_eq_true_eq] at h
    exact ⟨UInt32.le_iff_toNat_le.1 h.1, UInt32.le_iff_toNat_le.1 h.2⟩
  have hc := hascii ⟨c.toNat - 48, by omega⟩
  rwa [show 48 + (c.toNat - 48) = c.toNat by omega, Char.ofNat_toNat] at hc

theorem numberOf_toDigits (n : Nat) : numberOf (Nat.toDigits 10 n) = n := by
  refine Eq.trans (List.foldl_ext _ _ 0 fun m c hc => ?_) Nat.ofDigitChars_ten_toDigits
  rw [digit?_eq_of_isDigit (Nat.isDigit_of_mem_toDigits (by decide) (by decide) hc), Option.getD_some]

/-- No character that would go on with a type parameter. -/
def EndsVariable : List Char → Prop
  | [] => True
  | c :: _ => Text.digit? c = none ∧ c ≠ '!'

instance : DecidablePred EndsVariable
  | [] => inferInstanceAs (Decidable True)
  | c :: _ => inferInstanceAs (Decidable (Text.digit? c = none ∧ c ≠ '!'))

theorem EndsVariable.cons {c : Char} (h : Text.digit? c = none ∧ c ≠ '!') (cs : List Char) : EndsVariable (c :: cs) := h

/-- The digits of a text do not go on behind it. -/
private theorem takeWhile_append_of_ends (cs : List Char) {rest : List Char} (h : EndsVariable rest) :
    ((cs ++ rest).takeWhile fun c => (Text.digit? c).isSome) = cs.takeWhile fun c => (Text.digit? c).isSome := by
  induction cs with
  | nil =>
    cases rest with
    | nil => rfl
    | cons c rest => simp [h.1]
  | cons c cs ih => rw [List.cons_append, List.takeWhile_cons, List.takeWhile_cons, ih]

private theorem takeWhile_toDigits (n : Nat) :
    ((Nat.toDigits 10 n).takeWhile fun c => (Text.digit? c).isSome) = Nat.toDigits 10 n := by
  have hdigits : ∀ c ∈ Nat.toDigits 10 n, (Text.digit? c).isSome := fun c hc => by
    rw [digit?_eq_of_isDigit (Nat.isDigit_of_mem_toDigits (by decide) (by decide) hc)]
    rfl
  exact List.takeWhile_eq_self_iff.2 hdigits

/-! ### Texts in which arguments are put -/

/-- With the arguments put in, a text becomes another one, whatever follows. -/
def Rewrites (arguments : List String) (cs ds : List Char) : Prop :=
  ∀ rest, EndsVariable rest → substituteIn arguments (cs ++ rest) = ds ++ substituteIn arguments rest

variable {arguments : List String} {cs ds cs' ds' : List Char}

/-- A text is rewritten by itself. -/
theorem rewrites_self (arguments : List String) (cs : List Char) :
    Rewrites arguments cs (substituteIn arguments cs) := by
  intro rest hrest
  induction cs using substituteIn.induct with
  | case1 => rw [List.nil_append, substituteIn, List.nil_append]
  | case2 cs digits hempty ih =>
    rw [List.cons_append, List.cons_append, substituteIn, substituteIn, takeWhile_append_of_ends cs hrest,
      if_pos hempty, if_pos hempty, ← List.cons_append, ih, List.cons_append]
  | case3 cs digits hsome ih =>
    have hlength : digits.length ≤ cs.length := (List.takeWhile_prefix _).length_le
    rw [List.cons_append, List.cons_append, substituteIn, substituteIn, takeWhile_append_of_ends cs hrest,
      if_neg hsome, if_neg hsome, List.drop_append_of_le_length hlength, ih, List.append_assoc]
  | case4 c cs hother ih =>
    have hother' : ∀ tail, c = '!' → cs ++ rest = '!' :: tail → False := by
      rintro tail rfl htail
      cases cs with
      | nil =>
        rw [List.nil_append] at htail
        rw [htail] at hrest
        exact hrest.2 rfl
      | cons d cs =>
        obtain ⟨rfl, -⟩ := List.cons.inj htail
        exact hother cs rfl rfl
    rw [List.cons_append, substituteIn, substituteIn, ih, List.cons_append]
    · exact hother
    · exact hother'

/-- A text without type variables stays. -/
theorem substituteIn_append (h : '!' ∉ cs) (rest : List Char) :
    substituteIn arguments (cs ++ rest) = cs ++ substituteIn arguments rest := by
  induction cs with
  | nil => rfl
  | cons c cs ih =>
    rw [List.mem_cons, not_or] at h
    rw [List.cons_append, substituteIn, ih h.2, List.cons_append]
    rintro _ rfl
    exact absurd rfl h.1

theorem substitute_of_notMem {name : String} (h : '!' ∉ name.toList) : substitute arguments name = name := by
  have hstays : substituteIn arguments (name.toList ++ []) = _ := substituteIn_append h []
  rw [List.append_nil, substituteIn, List.append_nil] at hstays
  rw [substitute, hstays, String.ofList_toList]

namespace Rewrites

theorem name (arguments : List String) (name : String) :
    Rewrites arguments name.toList (substitute arguments name).toList := by
  rw [substitute, String.toList_ofList]
  exact rewrites_self arguments name.toList

theorem of_notMem (h : '!' ∉ cs) : Rewrites arguments cs cs := fun rest _ => substituteIn_append h rest

theorem append (h : Rewrites arguments cs ds) (h' : Rewrites arguments cs' ds') (hends : EndsVariable cs') :
    Rewrites arguments (cs ++ cs') (ds ++ ds') := by
  intro rest hrest
  have hnext : EndsVariable (cs' ++ rest) := by
    cases cs' with
    | nil => exact hrest
    | cons c cs' => exact hends
  rw [List.append_assoc, h _ hnext, h' rest hrest, List.append_assoc]

/-- Behind a text without type variables anything may follow. -/
theorem behind (h : '!' ∉ cs) (h' : Rewrites arguments cs' ds') : Rewrites arguments (cs ++ cs') (cs ++ ds') := by
  intro rest hrest
  rw [List.append_assoc, substituteIn_append h, h' rest hrest, List.append_assoc]

theorem bracketed {opening closing : List Char} (hopening : '!' ∉ opening) (h : Rewrites arguments cs ds)
    (hclosing : '!' ∉ closing ∧ EndsVariable closing) :
    Rewrites arguments (opening ++ (cs ++ closing)) (opening ++ (ds ++ closing)) :=
  behind hopening (h.append (of_notMem hclosing.1) hclosing.2)

theorem intercalate {α : Type} {f g : α → List Char} {xs : List α} (h : ∀ x ∈ xs, Rewrites arguments (f x) (g x)) :
    Rewrites arguments ([','].intercalate (xs.map f)) ([','].intercalate (xs.map g)) := by
  induction xs with
  | nil => exact of_notMem (by simp)
  | cons x xs ih =>
    have hx := h x (by simp)
    have hxs := ih fun y hy => h y (by simp [hy])
    cases xs with
    | nil => simpa using hx
    | cons y xs =>
      simp only [List.map_cons, List.intercalate_cons_cons, List.append_assoc] at hxs ⊢
      exact hx.append (behind (by decide) hxs) (.cons (by decide) _)

private theorem notMem_toDigits (n : Nat) : '!' ∉ Nat.toDigits 10 n := fun h =>
  absurd (Nat.isDigit_of_mem_toDigits (by decide) (by decide) h) (by decide)

/-- A type parameter of the declaring type stays. -/
theorem typeVar (number : Nat) :
    Rewrites arguments ('!' :: Nat.toDigits 10 number) ('!' :: Nat.toDigits 10 number) := by
  intro rest _
  rw [List.cons_append, substituteIn, substituteIn_append (notMem_toDigits number), List.cons_append]
  intro tail _ htail
  have hnot := notMem_toDigits number
  cases hdigits : Nat.toDigits 10 number with
  | nil => exact Nat.toDigits_ne_nil hdigits
  | cons d ds =>
    rw [hdigits] at htail hnot
    obtain rfl := (List.cons.inj htail).1
    simp at hnot

/-- The number of a type parameter of the method is read to its end. -/
theorem methodVar (arguments : List String) (number : Nat) :
    Rewrites arguments ('!' :: '!' :: Nat.toDigits 10 number)
      ((arguments[number]?.map String.toList).getD ('!' :: '!' :: Nat.toDigits 10 number)) := by
  intro rest hrest
  rw [List.cons_append, List.cons_append, substituteIn, takeWhile_append_of_ends _ hrest, takeWhile_toDigits]
  rw [if_neg (by simp [Nat.toDigits_ne_nil]), numberOf_toDigits, List.drop_left]

end Rewrites

end TypeName

namespace Signature

open CilProbe.TypeName (Rewrites)

variable {ν : Type}

/-! ### Types in which arguments are put -/

namespace TypeSig

mutual

/-- The type with the arguments in place of the type parameters of a method, all at once.  A parameter without an
argument stays. -/
def substitute (arguments : List (TypeSig ν)) : TypeSig ν → TypeSig ν
  | primitive type => primitive type
  | pointer target => pointer (target.substitute arguments)
  | byRef target => byRef (target.substitute arguments)
  | named isValueType name => named isValueType name
  | typeVar number => typeVar number
  | methodVar number => arguments[number]?.getD (methodVar number)
  | vector element => vector (element.substitute arguments)
  | array element rank sizes lowerBounds => array (element.substitute arguments) rank sizes lowerBounds
  | generic isValueType name types => generic isValueType name (substituteAll arguments types)
  | function convention genericParameters result parameters =>
    function convention genericParameters (result.substitute arguments) (substituteAll arguments parameters)
  | modified isRequired modifier type => modified isRequired modifier (type.substitute arguments)
  | pinned type => pinned (type.substitute arguments)
  | sentinel type => sentinel (type.substitute arguments)

def substituteAll (arguments : List (TypeSig ν)) : List (TypeSig ν) → List (TypeSig ν)
  | [] => []
  | t :: ts => t.substitute arguments :: substituteAll arguments ts

end

theorem substituteAll_eq (arguments ts : List (TypeSig ν)) :
    substituteAll arguments ts = ts.map (substitute arguments) := by
  induction ts with
  | nil => rfl
  | cons t ts ih => rw [substituteAll, ih, List.map_cons]

theorem map_substitute {ν' : Type} (f : ν → ν') (arguments : List (TypeSig ν)) (t : TypeSig ν) :
    (t.substitute arguments).map f = (t.map f).substitute (arguments.map (map f)) := by
  have hall {ts : List (TypeSig ν)}
      (h : ∀ t ∈ ts, (t.substitute arguments).map f = (t.map f).substitute (arguments.map (map f))) :
      mapAll f (substituteAll arguments ts) = substituteAll (arguments.map (map f)) (mapAll f ts) := by
    simp only [mapAll_eq, substituteAll_eq, List.map_map]
    exact List.map_congr_left h
  induction t using inductionOn with
  | primitive | named | typeVar => rfl
  | methodVar number =>
    rw [substitute, map, substitute, List.getElem?_map]
    cases arguments[number]? <;> rfl
  | pointer _ ih => exact congrArg pointer ih
  | byRef _ ih => exact congrArg byRef ih
  | vector _ ih => exact congrArg vector ih
  | array _ rank sizes lowerBounds ih => exact congrArg (array · rank sizes lowerBounds) ih
  | generic isValueType name _ ih => exact congrArg (generic isValueType (f name)) (hall ih)
  | function convention genericParameters _ _ ihresult ihparameters =>
    exact congrArg₂ (function convention genericParameters) ihresult (hall ihparameters)
  | modified isRequired modifier _ ih => exact congrArg (modified isRequired (f modifier)) ih
  | pinned _ ih => exact congrArg pinned ih
  | sentinel _ ih => exact congrArg sentinel ih

/-- Names that do not change are the names of the same type. -/
theorem map_map_of_references {ν' : Type} {f : ν → ν'} {g : ν' → ν'} {t : TypeSig ν}
    (h : ∀ x ∈ t.references, g (f x) = f x) : (t.map f).map g = t.map f := by
  have hall {ts : List (TypeSig ν)} (hts : ∀ t ∈ ts, (∀ x ∈ t.references, g (f x) = f x) → (t.map f).map g = t.map f)
      (h : ∀ x ∈ allReferences ts, g (f x) = f x) : mapAll g (mapAll f ts) = mapAll f ts := by
    simp only [mapAll_eq, List.map_map]
    exact List.map_congr_left fun t ht => hts t ht fun x hx => h x (mem_allReferences.2 ⟨t, ht, hx⟩)
  induction t using inductionOn with
  | primitive | typeVar | methodVar => rfl
  | named isValueType name => exact congrArg (named isValueType) (h name (List.mem_singleton.2 rfl))
  | pointer _ ih => exact congrArg pointer (ih h)
  | byRef _ ih => exact congrArg byRef (ih h)
  | vector _ ih => exact congrArg vector (ih h)
  | array _ rank sizes lowerBounds ih => exact congrArg (array · rank sizes lowerBounds) (ih h)
  | generic isValueType _ _ ih =>
    obtain ⟨hname, hnames⟩ := List.forall_mem_cons.1 h
    exact congrArg₂ (generic isValueType) hname (hall ih hnames)
  | function convention genericParameters _ _ ihresult ihparameters =>
    obtain ⟨hresult, hparameters⟩ := List.forall_mem_append.1 h
    exact congrArg₂ (function convention genericParameters) (ihresult hresult) (hall ihparameters hparameters)
  | modified isRequired _ _ ih =>
    obtain ⟨hmodifier, htype⟩ := List.forall_mem_cons.1 h
    exact congrArg₂ (modified isRequired) hmodifier (ih htype)
  | pinned _ ih => exact congrArg pinned (ih h)
  | sentinel _ ih => exact congrArg sentinel (ih h)

/-- The type with the arguments in place of type parameters, and with its own names changed as its text is. -/
def instantiate (arguments : List (TypeSig String)) (t : TypeSig String) : TypeSig String :=
  (t.map (TypeName.substitute (renderAll arguments))).substitute arguments

/-- Putting arguments into the name of a type gives the name of the type with the arguments in it. -/
theorem rewrites_render (arguments : List (TypeSig String)) (t : TypeSig String) :
    Rewrites (renderAll arguments) t.render.toList (t.instantiate arguments).render.toList := by
  have hall {ts : List (TypeSig String)}
      (h : ∀ t ∈ ts, Rewrites (renderAll arguments) t.render.toList (t.instantiate arguments).render.toList) :
      Rewrites (renderAll arguments) (",".intercalate (renderAll ts)).toList (",".intercalate (renderAll
        (substituteAll arguments (mapAll (TypeName.substitute (renderAll arguments)) ts)))).toList := by
    simp only [substituteAll_eq, mapAll_eq, String.toList_intercalate, renderAll_eq ts, renderAll_eq (ts.map _),
      List.map_map]
    exact .intercalate h
  induction t using TypeSig.inductionOn with
  | primitive type =>
    have hname : '!' ∉ type.name.toList := by cases type <;> decide
    exact .of_notMem hname
  | pointer target ih =>
    simp only [render, instantiate, map, substitute, String.toList_append]
    exact ih.append (.of_notMem (by decide)) (by decide)
  | byRef target ih =>
    simp only [render, instantiate, map, substitute, String.toList_append]
    exact ih.append (.of_notMem (by decide)) (by decide)
  | named isValueType name => exact .name _ name
  | typeVar number =>
    simp only [render, instantiate, map, substitute, String.toList_append, Nat.toString_eq_repr, Nat.toList_repr]
    exact .typeVar number
  | methodVar number =>
    have hparameter := Rewrites.methodVar (renderAll arguments) number
    have htext : (TypeSig.methodVar number : TypeSig String).render.toList = '!' :: '!' :: Nat.toDigits 10 number := by
      simp only [render, String.toList_append, Nat.toString_eq_repr, Nat.toList_repr]
      rfl
    rw [instantiate, map, substitute, htext]
    cases harg : arguments[number]? with
    | none => simpa [harg, htext, renderAll_eq] using hparameter
    | some a => simpa [harg, renderAll_eq] using hparameter
  | vector element ih =>
    simp only [render, instantiate, map, substitute, String.toList_append]
    exact ih.append (.of_notMem (by decide)) (by decide)
  | array element rank sizes lowerBounds ih =>
    simp only [render, instantiate, map, substitute, String.toList_append, String.toList_ofList, List.append_assoc]
    exact ih.append (.of_notMem (by simp)) (.cons (by decide) _)
  | generic isValueType name types ih =>
    simp only [render, instantiate, map, substitute, String.toList_append, List.append_assoc]
    exact (Rewrites.name _ name).append (.bracketed (by decide) (hall ih) (by decide)) (.cons (by decide) _)
  | function convention genericParameters result parameters ihresult ihparameters =>
    simp only [render, instantiate, map, substitute, String.toList_append, List.append_assoc]
    refine .behind (by decide) (ihresult.append (.bracketed (by decide) (hall ihparameters) (by decide)) ?_)
    exact .cons (by decide) _
  | modified isRequired modifier type ih => exact ih
  | pinned type ih => exact ih
  | sentinel type ih => exact ih

end TypeSig

theorem substitute_render (arguments : List (TypeSig String)) (t : TypeSig String) :
    TypeName.substitute (TypeSig.renderAll arguments) t.render = (t.instantiate arguments).render := by
  have hrewrites := TypeSig.rewrites_render arguments t [] trivial
  rw [List.append_nil, TypeName.substituteIn, List.append_nil] at hrewrites
  rw [TypeName.substitute]
  exact (congrArg String.ofList hrewrites).trans String.ofList_toList

/-- Type arguments may be put into the name of a type or into the type itself. -/
theorem substitute_nameWith (name : Metadata.Table → Nat → String) (arguments : List (TypeSig TypeRow))
    {t : TypeSig TypeRow} (h : ∀ row ∈ t.references, '!' ∉ (name row.table row.rid).toList) :
    TypeName.substitute (arguments.map (TypeSig.nameWith name)) (t.nameWith name) =
      (t.substitute arguments).nameWith name := by
  have htexts : arguments.map (TypeSig.nameWith name) =
      TypeSig.renderAll (arguments.map (TypeSig.map fun row => name row.table row.rid)) := by
    rw [TypeSig.renderAll_eq, List.map_map]
    rfl
  rw [htexts, TypeSig.nameWith, substitute_render, TypeSig.instantiate,
    TypeSig.map_map_of_references fun row hrow => TypeName.substitute_of_notMem (h row hrow),
    ← TypeSig.map_substitute, TypeSig.nameWith]

end Signature

end CilProbe
