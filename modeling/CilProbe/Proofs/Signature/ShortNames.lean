import CilProbe.Method
import CilProbe.Proofs.Signature.Marks
import CilProbe.Proofs.TypeName

/-!
# Short names

A type is shown to readers by what stands behind the last point of its name.  If no type argument shows a namespace, this
is the name without the namespace of the outermost type, with all that is built around it.  But type arguments are shown
with their namespaces, and then the last point is that of an argument: the type itself is lost, and of each list of
arguments around this point the bracket at its end is left (`short_keeps_head`).
-/

namespace CilProbe

namespace Signature

/-! ### Full names -/

/-- A name without points in a namespace that may have them. -/
structure FullName where
  space : String
  name : String
  plain : '.' ∉ name.toList

namespace FullName

variable (x : FullName)

def text : String := TypeName.qualified x.space x.name

/-- A namespace that is shown stands in no list of type arguments. -/
def namespace? : Option Nat := if x.space.isEmpty then none else some 0

/-- The angle brackets of the name itself, if there are any, pair up. -/
def Paired : Prop := x.name.toList.count '<' = x.name.toList.count '>'

instance : DecidablePred Paired := fun _ => inferInstanceAs (Decidable (_ = _))

end FullName

/-- The name without the namespace. -/
def Primitive.ownName : Primitive → String
  | void => "Void"
  | boolean => "Boolean"
  | char => "Char"
  | int8 => "SByte"
  | uint8 => "Byte"
  | int16 => "Int16"
  | uint16 => "UInt16"
  | int32 => "Int32"
  | uint32 => "UInt32"
  | int64 => "Int64"
  | uint64 => "UInt64"
  | single => "Single"
  | double => "Double"
  | string => "String"
  | typedReference => "TypedReference"
  | intPtr => "IntPtr"
  | uintPtr => "UIntPtr"
  | object => "Object"

/-- A primitive type as one of the namespace of all of them. -/
def Primitive.fullName (type : Primitive) : FullName := ⟨"System", type.ownName, by cases type <;> decide⟩

theorem Primitive.text_fullName (type : Primitive) : type.fullName.text = type.name := by
  cases type <;> decide

/-! ### Parts of a name -/

namespace TypeSig

def text (t : TypeSig FullName) : String := (t.map FullName.text).render

/-- The name, without its namespace, of the type that everything else in a type is built around.  Type parameters and
pointers to functions have none. -/
def outermost? : TypeSig FullName → Option String
  | primitive type => some type.ownName
  | named _ x | generic _ x _ => some x.name
  | pointer type | byRef type | vector type | array type _ _ _ | modified _ _ type | pinned type | sentinel type =>
    type.outermost?
  | typeVar _ | methodVar _ | function _ _ _ _ => none

mutual

/-- In how many lists of type arguments the last of the namespaces that a type shows stands; none if it shows none. -/
def lastNamespace? : TypeSig FullName → Option Nat
  | primitive type => type.fullName.namespace?
  | named _ x => x.namespace?
  | typeVar _ | methodVar _ => none
  | pointer type | byRef type | vector type | array type _ _ _ | modified _ _ type | pinned type | sentinel type =>
    type.lastNamespace?
  | generic _ x arguments => ((lastNamespaceOf? arguments).map (· + 1)).or x.namespace?
  | function _ _ result parameters => (lastNamespaceOf? parameters).or result.lastNamespace?

def lastNamespaceOf? : List (TypeSig FullName) → Option Nat
  | [] => none
  | t :: ts => (lastNamespaceOf? ts).or t.lastNamespace?

end

/-- In how many lists of type arguments the last namespace stands.  Behind the outermost type all namespaces are those of
type arguments, so this is zero if and only if no argument of it shows a namespace. -/
def argumentDepth (t : TypeSig FullName) : Nat := t.lastNamespace?.getD 0

end TypeSig

/-! ### What stands behind the last point -/

/-- There is a point in a text if and only if a namespace is shown, and behind the last one there are more closing than
opening brackets by the number of lists in which it stands. -/
private structure Cut (paired : Prop) (text : String) (depth? : Option Nat) : Prop where
  point : '.' ∈ text.toList ↔ depth?.isSome = true
  count : paired →
    (TypeName.afterLastPoint text).toList.count '>' = (TypeName.afterLastPoint text).toList.count '<' + depth?.getD 0

namespace Cut

variable {paired paired' : Prop} {x y : String} {a b : Option Nat}

private theorem mono (h : Cut paired x a) (hpaired : paired' → paired) : Cut paired' x a :=
  ⟨h.point, fun hpaired' => h.count (hpaired hpaired')⟩

private theorem of_notMem (h : '.' ∉ x.toList) (hcount : paired → x.toList.count '>' = x.toList.count '<') :
    Cut paired x none :=
  ⟨iff_of_false h (by simp), fun hpaired => by rw [TypeName.afterLastPoint_of_notMem h]; exact hcount hpaired⟩

private theorem notMem (h : Cut paired x none) : '.' ∉ x.toList := by simpa using h.point

private theorem append (hx : Cut paired x a) (hy : Cut paired y b) : Cut paired (x ++ y) (b.or a) := by
  refine ⟨?_, fun hpaired => ?_⟩
  · rw [String.toList_append, List.mem_append, hx.point, hy.point, Option.isSome_or, Bool.or_eq_true, or_comm]
  · have hcount := hx.count hpaired
    have hcount' := hy.count hpaired
    -- Without a point in it the second part is added to what is cut off; with one it hides the first part.
    cases b with
    | none =>
      rw [TypeName.afterLastPoint_of_notMem hy.notMem] at hcount'
      rw [TypeName.afterLastPoint_append_of_notMem hy.notMem, String.toList_append, List.count_append, List.count_append,
        hcount, hcount', Option.none_or, Option.getD_none]
      omega
    | some depth =>
      rw [TypeName.afterLastPoint_append_of_mem (hy.point.2 rfl), hcount', Option.some_or]

private theorem inBrackets (hx : Cut paired x a) : Cut paired ("<" ++ x ++ ">") (a.map (· + 1)) := by
  have hend : '.' ∉ ">".toList := by decide
  refine ⟨?_, fun hpaired => ?_⟩
  · rw [String.toList_append, List.mem_append, or_iff_left hend, String.toList_append, List.mem_append,
      or_iff_right (by decide), hx.point, Option.isSome_map]
  · have hcount := hx.count hpaired
    rw [TypeName.afterLastPoint_append_of_notMem hend]
    cases a with
    | none =>
      rw [TypeName.afterLastPoint_of_notMem hx.notMem] at hcount
      rw [TypeName.afterLastPoint_append_of_notMem hx.notMem, TypeName.afterLastPoint_of_notMem (by decide)]
      simp only [String.toList_append, List.count_append, hcount, Option.map_none, Option.getD_none]
      simp
      omega
    | some depth =>
      rw [TypeName.afterLastPoint_append_of_mem (hx.point.2 rfl)]
      simp only [String.toList_append, List.count_append, hcount, Option.map_some, Option.getD_some]
      simp
      omega

end Cut

private theorem cut_text (x : FullName) : Cut x.Paired x.text x.namespace? := by
  have hname := TypeName.afterLastPoint_qualified x.plain x.space
  refine ⟨?_, fun hpaired => ?_⟩
  · rw [FullName.text, TypeName.qualified, FullName.namespace?]
    split
    · simpa using x.plain
    · simp
  · rw [FullName.text, hname, ← hpaired, FullName.namespace?]
    split <;> rfl

namespace TypeSig

/-- Names joined by commas. -/
private theorem cut_intercalate {paired : Prop} {ts : List (TypeSig FullName)}
    (h : ∀ t ∈ ts, Cut paired t.text t.lastNamespace?) :
    Cut paired (",".intercalate (renderAll (mapAll FullName.text ts))) (lastNamespaceOf? ts) := by
  induction ts with
  | nil => exact .of_notMem (by simp [mapAll, renderAll]) fun _ => rfl
  | cons t ts ih =>
    have hrest := ih fun t ht => h t (by simp [ht])
    have hfirst := h t (by simp)
    cases ts with
    | nil =>
      rw [lastNamespaceOf?, lastNamespaceOf?, Option.none_or, mapAll, renderAll, mapAll, renderAll,
        String.intercalate_singleton]
      exact hfirst
    | cons t' ts =>
      have hcomma : Cut paired "," none := .of_notMem (by decide) fun _ => by decide
      have hboth := (hfirst.append hcomma).append hrest
      rw [Option.none_or] at hboth
      rw [mapAll, mapAll, renderAll, renderAll, String.intercalate_cons_cons]
      exact hboth

private theorem cut_toString (paired : Prop) (n : Nat) : Cut paired (toString n) none := by
  have hnone (c : Char) (hc : c.isDigit = false) : (toString n).toList.count c = 0 :=
    List.count_eq_zero.2 (notMem_toString hc n)
  exact .of_notMem (notMem_toString rfl n) fun _ => by rw [hnone '>' rfl, hnone '<' rfl]

/-- By induction on the type; of a generic instance what stands in brackets is shown behind the name. -/
private theorem cut (t : TypeSig FullName) : Cut (∀ x ∈ t.displayed, x.Paired) t.text t.lastNamespace? := by
  have hplain (paired : Prop) (text : String) (h : '.' ∉ text.toList)
      (hcount : text.toList.count '>' = text.toList.count '<') : Cut paired text none := .of_notMem h fun _ => hcount
  induction t using inductionOn with
  | primitive type =>
    have hpaired : type.fullName.Paired := by
      rw [FullName.Paired]
      cases type <;> decide
    have hcut := (cut_text type.fullName).mono fun _ : ∀ x ∈ (primitive type : TypeSig FullName).displayed, x.Paired =>
      hpaired
    rwa [Primitive.text_fullName] at hcut
  | named _ x => exact (cut_text x).mono fun h => h x (List.mem_singleton_self x)
  | typeVar number => exact (hplain _ "!" (by decide) (by decide)).append (cut_toString _ number)
  | methodVar number => exact (hplain _ "!!" (by decide) (by decide)).append (cut_toString _ number)
  | pointer _ ih => exact ih.append (hplain _ "*" (by decide) (by decide))
  | byRef _ ih => exact ih.append (hplain _ "&" (by decide) (by decide))
  | vector _ ih => exact ih.append (hplain _ "[]" (by decide) (by decide))
  | array element rank _ _ ih =>
    have hcommas := hplain (∀ x ∈ element.displayed, x.Paired) (String.ofList (List.replicate (rank - 1) ','))
      (by simp) (by simp [List.count_replicate])
    exact ((ih.append (hplain _ "[" (by decide) (by decide))).append hcommas).append
      (hplain _ "]" (by decide) (by decide))
  | modified _ _ _ ih | pinned _ ih | sentinel _ ih => exact ih
  | generic _ x arguments ih =>
    have hname := (cut_text x).mono fun h : ∀ y ∈ x :: allDisplayed arguments, y.Paired => h x (by simp)
    have harguments : Cut (∀ y ∈ x :: allDisplayed arguments, y.Paired) _ _ := cut_intercalate fun t ht =>
      (ih t ht).mono fun h y hy => h y (List.mem_cons_of_mem _ (mem_allDisplayed.2 ⟨t, ht, hy⟩))
    have hboth := hname.append harguments.inBrackets
    rwa [← String.append_assoc, ← String.append_assoc] at hboth
  | function _ _ result parameters ihresult ihparameters =>
    have hresult := ihresult.mono fun (h : ∀ x ∈ result.displayed ++ allDisplayed parameters, x.Paired) x hx =>
      h x (List.mem_append_left _ hx)
    have hparameters : Cut (∀ x ∈ result.displayed ++ allDisplayed parameters, x.Paired) _ _ :=
      cut_intercalate fun t ht => (ihparameters t ht).mono fun h x hx =>
        h x (List.mem_append_right _ (mem_allDisplayed.2 ⟨t, ht, hx⟩))
    have hfront := ((hplain _ "method " (by decide) (by decide)).append hresult).append
      (hplain _ " *(" (by decide) (by decide))
    have hall := (hfront.append hparameters).append (hplain _ ")" (by decide) (by decide))
    rwa [Option.none_or, Option.none_or, Option.or_none] at hall

/-- A type shows a namespace if and only if there is a point in its name. -/
theorem lastNamespace?_eq_none_iff (t : TypeSig FullName) : t.lastNamespace? = none ↔ '.' ∉ t.text.toList := by
  rw [t.cut.point, Bool.not_eq_true, Option.isSome_eq_false_iff, Option.isNone_iff_eq_none]

theorem lastNamespaceOf?_eq_none_iff {ts : List (TypeSig FullName)} :
    lastNamespaceOf? ts = none ↔ ∀ t ∈ ts, t.lastNamespace? = none := by
  induction ts with
  | nil => simp [lastNamespaceOf?]
  | cons t ts ih => rw [lastNamespaceOf?, Option.or_eq_none_iff, ih, List.forall_mem_cons, and_comm]

/-- The last namespace of a generic instance stands in type arguments if and only if there is a point in one of them. -/
theorem argumentDepth_generic_eq_zero_iff {isValueType : Bool} {x : FullName} {arguments : List (TypeSig FullName)} :
    (generic isValueType x arguments).argumentDepth = 0 ↔ ∀ t ∈ arguments, '.' ∉ t.text.toList := by
  have harguments : lastNamespaceOf? arguments = none ↔ ∀ t ∈ arguments, '.' ∉ t.text.toList := by
    simp only [lastNamespaceOf?_eq_none_iff, lastNamespace?_eq_none_iff]
  rw [← harguments, argumentDepth, lastNamespace?, FullName.namespace?]
  cases lastNamespaceOf? arguments with
  | none => split <;> simp
  | some depth => simp

/-! ### The outermost type -/

/-- As long as the last namespace is its own, what stands behind the last point begins with the outermost type. -/
private theorem outermost_isPrefix {t : TypeSig FullName} {head : String} (hhead : t.outermost? = some head)
    (hdepth : t.argumentDepth = 0) : head.toList <+: (TypeName.afterLastPoint t.text).toList := by
  have happend {front rest : String} (hrest : '.' ∉ rest.toList)
      (h : head.toList <+: (TypeName.afterLastPoint front).toList) :
      head.toList <+: (TypeName.afterLastPoint (front ++ rest)).toList := by
    rw [TypeName.afterLastPoint_append_of_notMem hrest, String.toList_append]
    exact h.trans (List.prefix_append _ _)
  have hname (x : FullName) : x.name.toList <+: (TypeName.afterLastPoint x.text).toList := by
    have hafter : TypeName.afterLastPoint x.text = x.name := TypeName.afterLastPoint_qualified x.plain x.space
    exact hafter ▸ List.prefix_refl _
  induction t using inductionOn with
  | primitive type =>
    cases hhead
    have hprefix := hname type.fullName
    rwa [Primitive.text_fullName] at hprefix
  | named _ x =>
    cases hhead
    exact hname x
  | typeVar | methodVar | function => contradiction
  | pointer _ ih | byRef _ ih | vector _ ih => exact happend (by decide) (ih hhead hdepth)
  | array _ rank _ _ ih =>
    exact happend (by decide) (happend (by simp) (happend (by decide) (ih hhead hdepth)))
  | modified _ _ _ ih | pinned _ ih | sentinel _ ih => exact ih hhead hdepth
  | generic _ x arguments =>
    cases hhead
    have hnone : lastNamespaceOf? arguments = none := lastNamespaceOf?_eq_none_iff.2 fun t ht =>
      t.lastNamespace?_eq_none_iff.2 (argumentDepth_generic_eq_zero_iff.1 hdepth t ht)
    have harguments : Cut False (",".intercalate (renderAll (mapAll FullName.text arguments)))
        (lastNamespaceOf? arguments) := cut_intercalate fun t _ => t.cut.mono False.elim
    rw [hnone] at harguments
    have hprefix := happend harguments.inBrackets.notMem (hname x)
    rwa [← String.append_assoc, ← String.append_assoc] at hprefix

private theorem keyword_of_lookup {text keyword : String} (h : TypeName.keywords.lookup text = some keyword) :
    (TypeName.afterLastPoint text).toList.count '>' = (TypeName.afterLastPoint text).toList.count '<' ∧
      keyword.toList.count '>' = keyword.toList.count '<' := by
  have hall : ∀ entry ∈ TypeName.keywords,
      (TypeName.afterLastPoint entry.1).toList.count '>' = (TypeName.afterLastPoint entry.1).toList.count '<' ∧
        entry.2.toList.count '>' = entry.2.toList.count '<' := by decide
  obtain ⟨before, after, heq, -⟩ := List.lookup_eq_some_iff.1 h
  exact hall (text, keyword) (by rw [heq]; simp)

/-- What a short name keeps of a type with an outermost one, and what the name of a method does that shows the type.
They begin with it as long as no type argument shows a namespace, except that built-in types have keywords.  But the
short name has more closing than opening brackets, by the number of lists of arguments around the last namespace. -/
theorem short_keeps_head {t : TypeSig FullName} {head : String} (hhead : t.outermost? = some head) :
    (t.argumentDepth = 0 →
      ((TypeName.keywords.lookup t.text).getD head).toList <+: (TypeName.short t.text).toList) ∧
    ((∀ x ∈ t.displayed, x.Paired) →
      (TypeName.short t.text).toList.count '>' = (TypeName.short t.text).toList.count '<' + t.argumentDepth) ∧
    ∀ m : Method, m.declaringType = t.text →
      (t.argumentDepth = 0 → head.toList <+: m.displayName.toList) ∧
        ("." ++ m.name).toList <:+ m.displayName.toList := by
  refine ⟨fun hdepth => ?_, fun hpaired => ?_, fun m hm => ⟨fun hdepth => ?_, ?_⟩⟩
  · rw [TypeName.short]
    cases TypeName.keywords.lookup t.text with
    | none => exact outermost_isPrefix hhead hdepth
    | some keyword => exact List.prefix_refl _
  · have hcount := t.cut.count hpaired
    rw [TypeName.short, argumentDepth]
    cases hkeyword : TypeName.keywords.lookup t.text with
    | none => exact hcount
    | some keyword =>
      obtain ⟨hshort, hkeyword⟩ := keyword_of_lookup hkeyword
      rw [Option.getD_some, hkeyword]
      omega
  · rw [Method.displayName, hm, String.append_assoc, String.toList_append]
    exact (outermost_isPrefix hhead hdepth).trans (List.prefix_append _ _)
  · exact ⟨(TypeName.afterLastPoint m.declaringType).toList, by
      rw [← String.toList_append, Method.displayName, String.append_assoc]⟩

/-- A generic type of which the arguments show no namespace. -/
private def mapOfCells : TypeSig FullName :=
  byRef (generic false ⟨"Data.Tables", "Map", by decide⟩
    [named false ⟨"", "Row", by decide⟩, vector (named true ⟨"", "Cell", by decide⟩)])

/-- A generic type with a primitive type as its argument. -/
private def listOfStrings : TypeSig FullName :=
  generic false ⟨"System.Collections.Generic", "List", by decide⟩ [primitive .string]

theorem short_keeps_head_map :
    mapOfCells.outermost? = some "Map" ∧ mapOfCells.argumentDepth = 0 ∧
      "Map".toList <+: (TypeName.short mapOfCells.text).toList ∧
      (TypeName.short mapOfCells.text).toList.count '>' = (TypeName.short mapOfCells.text).toList.count '<' ∧
      "Map".toList <+: (Method.displayName { declaringType := mapOfCells.text, name := "Get" }).toList ∧
      (TypeName.short listOfStrings.text).toList.count '>' =
        (TypeName.short listOfStrings.text).toList.count '<' + 1 := by
  have hmap : mapOfCells.outermost? = some "Map" := rfl
  have hlist : listOfStrings.outermost? = some "List" := rfl
  obtain ⟨hshort, hcount, hdisplay⟩ := short_keeps_head hmap
  obtain ⟨-, hcount', -⟩ := short_keeps_head hlist
  have hpaired : ∀ x ∈ mapOfCells.displayed, x.Paired := by decide
  have hpaired' : ∀ x ∈ listOfStrings.displayed, x.Paired := by decide
  exact ⟨hmap, by decide, hshort (by decide), hcount hpaired, (hdisplay _ rfl).1 (by decide), hcount' hpaired'⟩

/-- Of a list of strings neither the short name nor the name of a method shows what it is. -/
theorem short_loses_head :
    listOfStrings.text = "System.Collections.Generic.List<System.String>" ∧ listOfStrings.outermost? = some "List" ∧
      TypeName.short listOfStrings.text = "String>" ∧ ¬"List".toList <+: (TypeName.short listOfStrings.text).toList ∧
      (TypeName.short listOfStrings.text).toList.count '<' ≠ (TypeName.short listOfStrings.text).toList.count '>' ∧
      Method.displayName { declaringType := listOfStrings.text, name := "Add" } = "String>.Add" := by
  decide

end TypeSig

end Signature

end CilProbe
