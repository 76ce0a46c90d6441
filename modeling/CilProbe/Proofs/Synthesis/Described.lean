import CilProbe.Proofs.Synthesis.Search
import CilProbe.Synthesis.Argument

/-!
# Hosts that a graph describes

A host is described by a graph of types if reflection always answers as the graph says and the constructors do what it
says (`Describes`).  The sessions may change meanwhile.

* The default of a type is that of the graph, if the texts of failures can be taken: `always_defaultOf`.
* Every graph describes some host: `describes_host`.
-/

namespace CilProbe.Synthesis

variable {τ μ σ α β : Type}

/-! ### Hosts of a graph -/

/-- An action ends in the same way in every session. -/
def Always (act : Action σ α) (ended : Except Raised α) : Prop := ∀ s, ∃ s', act.run s = (ended, s')

/-- An action always ends with a value, although not always with the same. -/
def Returns (act : Action σ α) : Prop := ∀ s, ∃ a, (act.run s).1 = .ok a

/-- The host answers as the graph says, in every session.  Only arrays need to have elements. -/
structure Describes (g : TypeGraph τ μ) (h : Host τ μ σ) : Prop where
  typeName t : Always (h.typeName t) (.ok (g.typeName t))
  kind t : Always (h.typeKind t) (.ok (g.kind t))
  members t : Always (h.enumMembers t) (.ok (g.members t))
  element t : g.kind t = .array → Always (h.elementType t) (.ok (g.element t))
  newArray t length : Always (h.newArray t length) (.ok (g.newArray t length))
  created t v : g.created t = some v → Always (h.createDefault t) (.ok v)
  notCreated t : g.created t = none → ∀ s, ∃ f s', (h.createDefault t).run s = (.error (.fault f), s')
  constructors t : Always (h.constructors t) (.ok (g.constructors t))
  parameters c : Always (h.parameters c) (.ok (g.parameters c))
  construct c make : g.construct c = some make → ∀ arguments, Always (h.construct c arguments) (.ok (make arguments))
  failing c : g.construct c = none →
    ∀ arguments s, ∃ raised s', (h.construct c arguments).run s = (.error raised, s')

/-- No constructor asks to leave the process. -/
def NoExits (h : Host τ μ σ) : Prop := ∀ c arguments s s' e, (h.construct c arguments).run s ≠ (.error (.exit e), s')

/-- The text of every failure can be taken. -/
def Legible (h : Host τ μ σ) : Prop := ∀ f, Returns (h.text f)

/-! ### Runs -/

section

variable {ς : Type} {act : ExceptT Raised (StateM ς) α} {state state' : ς} {a : α}

theorem run_bind_of_ok (h : act.run state = (.ok a, state')) (next : α → ExceptT Raised (StateM ς) β) :
    (act >>= next).run state = (next a).run state' := by
  change (match act.run state with | (ended, after) => ExceptT.bindCont next ended after) = _
  rw [h]
  rfl

theorem run_bind_of_error {raised : Raised} (h : act.run state = (.error raised, state'))
    (next : α → ExceptT Raised (StateM ς) β) : (act >>= next).run state = (.error raised, state') := by
  change (match act.run state with | (ended, after) => ExceptT.bindCont next ended after) = _
  rw [h]
  rfl

end

namespace Always

variable {act : Action σ α} {next : α → Action σ β} {a : α} {ended : Except Raised β}

theorem pure (a : α) : Always (Pure.pure a : Action σ α) (.ok a) := fun s => ⟨s, rfl⟩

theorem bind (ha : Always act (.ok a)) (hnext : Always (next a) ended) : Always (act >>= next) ended := by
  intro s
  obtain ⟨s', hrun⟩ := ha s
  rw [run_bind_of_ok hrun]
  exact hnext s'

end Always

theorem Returns.run {act : Action σ α} (h : Returns act) (s : Session σ) : ∃ a s', act.run s = (.ok a, s') := by
  obtain ⟨a, ha⟩ := h s
  exact ⟨a, (act.run s).2, Prod.ext ha rfl⟩

variable {g : TypeGraph τ μ} {h : Host τ μ σ}

theorem always_runtimeDefault (hg : Describes g h) (hlegible : Legible h) (t : τ) :
    Always (runtimeDefault h t) (.ok ((g.created t).getD .none)) := by
  intro s
  cases hcreated : g.created t with
  | some v =>
    obtain ⟨s', hrun⟩ := hg.created t v hcreated s
    rw [runtimeDefault, run_bind_of_ok (Action.run_attempt_of_ok hrun)]
    exact ⟨s', rfl⟩
  | none =>
    obtain ⟨f, s', hrun⟩ := hg.notCreated t hcreated s
    obtain ⟨text, s'', htext⟩ := (hlegible f).run s'
    rw [runtimeDefault, run_bind_of_ok (Action.run_attempt_of_fault hrun), run_bind_of_ok htext]
    exact ⟨s'', rfl⟩

theorem always_defaultOf (hg : Describes g h) (hlegible : Legible h) (t : τ) :
    Always (defaultOf h t) (.ok (g.defaultOf t)) := by
  rw [defaultOf, TypeGraph.defaultOf]
  refine (hg.typeName t).bind ?_
  cases Conversion.default? (g.typeName t) with
  | some v => exact Always.pure v
  | none =>
    refine (hg.kind t).bind ?_
    cases hkind : g.kind t with
    | enum =>
      refine (hg.members t).bind ?_
      cases g.members t with
      | nil => exact always_runtimeDefault hg hlegible t
      | cons member _ => exact Always.pure member.2
    | array => exact (hg.element t hkind).bind (hg.newArray (g.element t) 0)
    | string => exact Always.pure _
    | value => exact always_runtimeDefault hg hlegible t
    | plainClass | interface | abstractClass => exact Always.pure _

/-! ### The host of a graph -/

/-- Ends with what there is, and otherwise raises this. -/
def orRaise (raised : Raised) : Option α → Action σ α
  | some a => return a
  | none => throw raised

/-- The host that is as the graph says; constructors that fail raise this.  It has no methods and converts nothing. -/
def TypeGraph.host (g : TypeGraph τ μ) (raised : Raised) : Host τ μ Unit where
  typeName t := return g.typeName t
  typeKind t := return g.kind t
  enumMembers t := return g.members t
  elementType t := return g.element t
  newArray t length := return g.newArray t length
  createDefault t := orRaise (.fault default) (g.created t)
  convert _ _ := Action.fail default
  constructors t := return g.constructors t
  parameters c := return g.parameters c
  construct c arguments := orRaise raised ((g.construct c).map fun make => make arguments)
  declaringType _ := Action.fail default
  describe _ := Action.fail default
  methodKind _ := Action.fail default
  invoke _ _ _ := Action.fail default
  isAwaitable _ := return false
  awaitResult _ := Action.fail default
  text f := return f.text
  unwrap f := return f.inner?
  report f := return f.report
  redirectsConsole := false

/-- The graph of one type; only the members of an enumeration tell more of it. -/
def TypeGraph.single (typeName : String) (kind : TypeKind) (members : List (String × Value)) : TypeGraph Unit Unit where
  typeName _ := typeName
  kind _ := kind
  members _ := members
  element type := type
  newArray _ _ := .none
  created _ := none
  constructors _ := []
  parameters _ := []
  construct _ := none

/-- A parameter of the one type, without a default. -/
def singleParameter (name typeName : String) : Parameter Unit where
  name := name
  type := ()
  typeName := typeName
  position := 0
  isOptional := false
  declared := none

theorem describes_host (g : TypeGraph τ μ) (raised : Raised) : Describes g (g.host raised) where
  typeName _ := Always.pure _
  kind _ := Always.pure _
  members _ := Always.pure _
  element _ _ := Always.pure _
  newArray _ _ := Always.pure _
  created t v hv := by
    change Always (orRaise (.fault default) (g.created t)) _
    rw [hv]
    exact Always.pure v
  notCreated t ht s := by
    change ∃ f s', (orRaise (.fault default) (g.created t) : Action Unit Value).run s = _
    rw [ht]
    exact ⟨default, s, rfl⟩
  constructors _ := Always.pure _
  parameters _ := Always.pure _
  construct c make hmake arguments := by
    change Always (orRaise raised ((g.construct c).map fun make => make arguments)) _
    rw [hmake]
    exact Always.pure (make arguments)
  failing c hc arguments s := by
    change ∃ raised' s', (orRaise raised ((g.construct c).map fun make => make arguments) : Action Unit Value).run s = _
    rw [hc]
    exact ⟨raised, s, rfl⟩

theorem legible_host (g : TypeGraph τ μ) (raised : Raised) : Legible (g.host raised) := fun f _ => ⟨f.text, rfl⟩

theorem noExits_host (g : TypeGraph τ μ) (f : Fault) : NoExits (g.host (.fault f)) := by
  intro c arguments s s' e hrun
  change (orRaise (.fault f) ((g.construct c).map fun make => make arguments)).run s = _ at hrun
  cases hmake : g.construct c with
  | some make => rw [hmake] at hrun; cases hrun
  | none => rw [hmake] at hrun; cases hrun

end CilProbe.Synthesis
