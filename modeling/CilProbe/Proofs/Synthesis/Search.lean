import CilProbe.Conversion
import CilProbe.Host

/-!
# A search without memory

What types and constructors are like if nothing about them ever changes (`TypeGraph`), and the search for an instance
that tries again what has failed before (`TypeGraph.search`).  The graph may have cycles; the bound on the depth ends
the search.

* A type that fails at some depth fails at every greater depth: `TypeGraph.search_eq_none_of_le`.
-/

namespace CilProbe.Synthesis

variable {τ μ : Type}

structure TypeGraph (τ μ : Type) where
  typeName : τ → String
  kind : τ → TypeKind
  members : τ → List (String × Value)
  element : τ → τ
  newArray : τ → Int → Value
  /-- The value that the runtime makes without a constructor, if it makes one. -/
  created : τ → Option Value
  constructors : τ → List μ
  parameters : μ → List (Parameter τ)
  /-- What a constructor makes of its arguments, unless it always fails. -/
  construct : μ → Option (List Value → Value)

namespace TypeGraph

variable (g : TypeGraph τ μ)

/-- The default of a type. -/
def defaultOf (t : τ) : Value :=
  match Conversion.default? (g.typeName t) with
  | some v => v
  | none =>
    match g.kind t with
    | .enum =>
      match g.members t with
      | (_, v) :: _ => v
      | [] => (g.created t).getD .none
    | .array => g.newArray (g.element t) 0
    | .string => .text ""
    | .value => (g.created t).getD .none
    | _ => .none

/-- The argument for a parameter; `build` makes instances of the types without a default. -/
def argument (build : τ → Option Value) (p : Parameter τ) : Option Value :=
  if (g.kind p.type).hasDefault then some (g.defaultOf p.type) else build p.type

/-- What a constructor makes. -/
def apply (build : τ → Option Value) (c : μ) : Option Value := do
  let arguments ← (g.parameters c).mapM (g.argument build)
  let make ← g.construct c
  return make arguments

/-- What the first constructor without parameters makes; and if there is none, what the first one that succeeds makes,
tried by the number of parameters. -/
def choose (build : τ → Option Value) (constructors : List μ) : Option Value :=
  match constructors.find? fun c => (g.parameters c).isEmpty with
  | some c => (g.construct c).map fun make => make []
  | none =>
    (constructors.mergeSort fun a b => (g.parameters a).length ≤ (g.parameters b).length).findSome? (g.apply build)

/-- An instance of a type within the bound; `build` makes instances one level deeper. -/
def ofType (build : τ → Option Value) (t : τ) : Option Value :=
  match g.kind t with
  | .string => some (.text "")
  | .value | .enum | .array => some (g.defaultOf t)
  | .abstractClass | .interface => none
  | .plainClass => g.choose build (g.constructors t)

/-- The search for an instance of a type at a depth. -/
def search (g : TypeGraph τ μ) (bound depth : Nat) (t : τ) : Option Value :=
  if bound < depth then none else g.ofType (search g bound (depth + 1)) t
termination_by bound + 1 - depth

/-! ### Failure at greater depths -/

variable {g} {build build' : τ → Option Value}

private theorem mapM_eq_none_of_imp {α β : Type} {f f' : α → Option β} (h : ∀ a, f a = none → f' a = none) (l : List α)
    (hl : l.mapM f = none) : l.mapM f' = none := by
  induction l with
  | nil => contradiction
  | cons a l ih =>
    rw [List.mapM_cons] at hl ⊢
    cases hf' : f' a with
    | none => rfl
    | some b' =>
      cases hf : f a with
      | none => rw [h a hf] at hf'; contradiction
      | some b =>
        cases hrest : l.mapM f with
        | none => rw [ih hrest]; rfl
        | some bs => rw [hf, hrest] at hl; contradiction

theorem argument_eq_none (h : ∀ t, build t = none → build' t = none) (p : Parameter τ)
    (hp : g.argument build p = none) : g.argument build' p = none := by
  rw [argument] at hp ⊢
  split at hp
  · contradiction
  · next hkind => rw [if_neg hkind]; exact h p.type hp

theorem apply_eq_none (h : ∀ t, build t = none → build' t = none) (c : μ) (hc : g.apply build c = none) :
    g.apply build' c = none := by
  rw [apply] at hc ⊢
  cases harguments' : (g.parameters c).mapM (g.argument build') with
  | none => rfl
  | some arguments' =>
    cases harguments : (g.parameters c).mapM (g.argument build) with
    | none =>
      rw [mapM_eq_none_of_imp (argument_eq_none h) _ harguments] at harguments'
      contradiction
    | some arguments =>
      cases hmake : g.construct c with
      | none => rfl
      | some make => rw [harguments, hmake] at hc; contradiction

/-- If less can be built, no more can be chosen. -/
theorem choose_eq_none (h : ∀ t, build t = none → build' t = none) (constructors : List μ)
    (hc : g.choose build constructors = none) : g.choose build' constructors = none := by
  rw [choose] at hc ⊢
  split at hc
  · exact hc
  · rw [List.findSome?_eq_none_iff] at hc ⊢
    exact fun c hmem => apply_eq_none h c (hc c hmem)

theorem ofType_eq_none (h : ∀ t, build t = none → build' t = none) (t : τ) (ht : g.ofType build t = none) :
    g.ofType build' t = none := by
  rw [ofType] at ht ⊢
  cases hkind : g.kind t with
  | plainClass =>
    rw [hkind] at ht
    exact choose_eq_none h (g.constructors t) ht
  | string | value | enum | array =>
    rw [hkind] at ht
    contradiction
  | abstractClass | interface => rfl

theorem search_of_lt {bound depth : Nat} (h : bound < depth) (t : τ) : g.search bound depth t = none := by
  rw [search, if_pos h]

theorem search_of_le {bound depth : Nat} (h : depth ≤ bound) (t : τ) :
    g.search bound depth t = g.ofType (g.search bound (depth + 1)) t := by
  rw [search, if_neg (Nat.not_lt.mpr h)]

/-- One level deeper nothing succeeds that failed. -/
theorem search_succ_eq_none (bound depth : Nat) (t : τ) (h : g.search bound depth t = none) :
    g.search bound (depth + 1) t = none := by
  induction depth, t using search.induct bound with
  | case1 depth t hlt => exact search_of_lt (by omega) t
  | case2 depth t hnot ih =>
    rcases Nat.lt_or_ge bound (depth + 1) with hlt | hle
    · exact search_of_lt hlt t
    · rw [search_of_le (by omega)] at h
      rw [search_of_le hle]
      exact ofType_eq_none ih t h

theorem search_eq_none_of_le {bound depth depth' : Nat} {t : τ} (h : g.search bound depth t = none)
    (hle : depth ≤ depth') : g.search bound depth' t = none := by
  induction hle with
  | refl => exact h
  | step _ ih => exact search_succ_eq_none bound _ t ih

end TypeGraph

end CilProbe.Synthesis
