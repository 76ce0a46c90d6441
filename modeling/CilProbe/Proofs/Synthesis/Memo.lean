import CilProbe.Proofs.Synthesis.Described
import CilProbe.Synthesis.Instance
import Mathlib

/-!
# The memory of the search

The search for an instance remembers what has failed, and does not try it again at the same depth or deeper.  This
changes no result: a step of the search follows what is expected of it if it ends as expected and what is remembered
afterwards are failures of the search without memory (`Follows`).

* One step is followed by another: `Follows.bind`, `Follows.attempt`.
* What fails is remembered, and what is remembered need not be tried: `follows_noting`, `follows_unlessFailed`.
* The search follows the one without memory, by induction on the number of levels that are left: `follows_build`.
* An instance is made if and only if the search without memory finds it, as long as the texts of failures can be taken:
  `instanceOf_eq_search`.
-/

namespace CilProbe.Synthesis

variable {τ μ σ α β : Type} {g : TypeGraph τ μ} {h : Host τ μ σ}

/-! ### Searches that follow the search without memory -/

/-- An action ends with a value if there is one to expect, and otherwise with a fault of some kind. -/
def Ends (refusal : Fault → Prop) (ended : Except Raised α) : Option α → Prop
  | some a => ended = .ok a
  | none => ∃ f, ended = .error (.fault f) ∧ refusal f

/-- What is remembered as a failure fails. -/
def Sound (g : TypeGraph τ μ) (bound : Nat) (failures : Failures) : Prop :=
  ∀ t level, failures.lookup (g.typeName t) = some level →
    ∃ depth : Nat, level = depth ∧ g.search bound depth t = none

/-- A step ends as expected, and what is remembered stays true. -/
def Follows (g : TypeGraph τ μ) (bound : Nat) (refusal : Fault → Prop) (act : Search σ α)
    (expected : Option α) : Prop :=
  ∀ failures s, Sound g bound failures →
    ∃ ended failures' s', act.run (failures, s) = (ended, failures', s') ∧ Sound g bound failures' ∧
      Ends refusal ended expected

/-- The fault says that no instance was built. -/
def IsInstantiation (f : Fault) : Prop := ∃ e, f = .instantiation e

/-! ### Steps -/

theorem Search.run_attempt_of_ok {act : Search σ α} {a : α} {state state' : Failures × Session σ}
    (h : act.run state = (.ok a, state')) : (Search.attempt act).run state = (.ok (.ok a), state') := by
  change Search.attempt act state = _
  rw [Search.attempt, show act state = _ from h]

theorem Search.run_attempt_of_fault {act : Search σ α} {f : Fault} {state state' : Failures × Session σ}
    (h : act.run state = (.error (.fault f), state')) : (Search.attempt act).run state = (.ok (.error f), state') := by
  change Search.attempt act state = _
  rw [Search.attempt, show act state = _ from h]

theorem Search.run_lift {act : Action σ α} {ended : Except Raised α} {s s' : Session σ} (h : act.run s = (ended, s'))
    (failures : Failures) : (Search.lift act).run (failures, s) = (ended, failures, s') := by
  change Search.lift act (failures, s) = _
  rw [Search.lift, show act s = _ from h]

namespace Follows

variable {bound : Nat} {refusal refusal' : Fault → Prop}

theorem pure (a : α) : Follows g bound refusal (Pure.pure a : Search σ α) (some a) :=
  fun failures s hs => ⟨.ok a, failures, s, rfl, hs, rfl⟩

theorem failWith (typeName : String) (reason : InstantiationReason) :
    Follows g bound IsInstantiation (Search.failWith typeName reason : Search σ α) none :=
  fun failures s hs => ⟨_, failures, s, rfl, hs, _, rfl, _, rfl⟩

theorem mono {act : Search σ α} {expected : Option α} (hact : Follows g bound refusal act expected)
    (h : ∀ f, refusal f → refusal' f) : Follows g bound refusal' act expected := by
  intro failures s hs
  obtain ⟨ended, failures', s', hrun, hs', hended⟩ := hact failures s hs
  refine ⟨ended, failures', s', hrun, hs', ?_⟩
  cases expected with
  | some a => exact hended
  | none =>
    obtain ⟨f, hf, hrefusal⟩ := hended
    exact ⟨f, hf, h f hrefusal⟩

theorem bind {act : Search σ α} {next : α → Search σ β} {expected : Option α} {expected' : α → Option β}
    (hact : Follows g bound refusal act expected) (hnext : ∀ a, Follows g bound refusal (next a) (expected' a)) :
    Follows g bound refusal (act >>= next) (expected >>= expected') := by
  intro failures s hs
  obtain ⟨ended, failures', s', hrun, hs', hended⟩ := hact failures s hs
  cases expected with
  | some a =>
    subst hended
    rw [run_bind_of_ok hrun]
    exact hnext a failures' s' hs'
  | none =>
    obtain ⟨f, rfl, hf⟩ := hended
    exact ⟨_, failures', s', run_bind_of_error hrun next, hs', f, rfl, hf⟩

theorem bind_some {act : Search σ α} {next : α → Search σ β} {a : α} {expected : Option β}
    (hact : Follows g bound refusal act (some a)) (hnext : Follows g bound refusal (next a) expected) :
    Follows g bound refusal (act >>= next) expected := by
  intro failures s hs
  obtain ⟨_, failures', s', hrun, hs', rfl⟩ := hact failures s hs
  rw [run_bind_of_ok hrun]
  exact hnext failures' s' hs'

theorem lift {act : Action σ α} {a : α} (ha : Always act (.ok a)) :
    Follows g bound refusal (Search.lift act) (some a) := by
  intro failures s hs
  obtain ⟨s', hrun⟩ := ha s
  exact ⟨.ok a, failures, s', Search.run_lift hrun failures, hs, rfl⟩

/-- What an action has for an answer does not matter if one goes on alike. -/
theorem lift_returns {act : Action σ β} (hact : Returns act) {next : β → Search σ α} {expected : Option α}
    (hnext : ∀ b, Follows g bound refusal (next b) expected) :
    Follows g bound refusal (Search.lift act >>= next) expected := by
  intro failures s hs
  obtain ⟨b, s', hrun⟩ := hact.run s
  rw [run_bind_of_ok (Search.run_lift hrun failures)]
  exact hnext b failures s' hs

/-- What an attempt makes is kept; and whatever goes wrong in it, something else is done then. -/
theorem attempt {act : Search σ α} {next : Except Fault α → Search σ α} {expected expected' : Option α}
    (hact : Follows g bound refusal act expected) (hnext : ∀ a, Follows g bound refusal' (next (.ok a)) (some a))
    (hother : ∀ f, Follows g bound refusal' (next (.error f)) expected') :
    Follows g bound refusal' (Search.attempt act >>= next) (expected.or expected') := by
  intro failures s hs
  obtain ⟨ended, failures', s', hrun, hs', hended⟩ := hact failures s hs
  cases expected with
  | some a =>
    subst hended
    rw [run_bind_of_ok (Search.run_attempt_of_ok hrun)]
    exact hnext a failures' s' hs'
  | none =>
    obtain ⟨f, rfl, -⟩ := hended
    rw [run_bind_of_ok (Search.run_attempt_of_fault hrun)]
    exact hother f failures' s' hs'

end Follows

/-! ### Constructors -/

section

variable {bound : Nat} {build : τ → Search σ Value} {expected : τ → Option Value}

theorem follows_construct (hg : Describes g h) (hexit : NoExits h) (c : μ) (arguments : List Value) :
    Follows g bound (fun _ => True) (Search.lift (h.construct c arguments))
      ((g.construct c).map fun make => make arguments) := by
  intro failures s hs
  cases hmake : g.construct c with
  | some make => exact Follows.lift (hg.construct c make hmake arguments) failures s hs
  | none =>
    obtain ⟨raised, s', hrun⟩ := hg.failing c hmake arguments s
    cases raised with
    | exit e => exact absurd hrun (hexit c arguments s s' e)
    | fault f => exact ⟨.error (.fault f), failures, s', Search.run_lift hrun failures, hs, f, rfl, trivial⟩

theorem follows_argumentsFor (hg : Describes g h) (hlegible : Legible h)
    (hbuild : ∀ t, Follows g bound IsInstantiation (build t) (expected t)) (ps : List (Parameter τ)) :
    Follows g bound IsInstantiation (Search.argumentsFor h build ps) (ps.mapM (g.argument expected)) := by
  induction ps with
  | nil => exact Follows.pure []
  | cons p ps ih =>
    have hrest (v : Value) : Follows g bound IsInstantiation
        (Search.argumentsFor h build ps >>= fun vs => pure (v :: vs))
        (ps.mapM (g.argument expected) >>= fun vs => some (v :: vs)) :=
      ih.bind fun vs => Follows.pure (v :: vs)
    rw [Search.argumentsFor, List.mapM_cons, TypeGraph.argument]
    refine (Follows.lift (hg.kind p.type)).bind_some ?_
    split
    · exact (Follows.lift (always_defaultOf hg hlegible p.type)).bind_some (hrest (g.defaultOf p.type))
    · exact (hbuild p.type).bind hrest

theorem follows_apply (hg : Describes g h) (hlegible : Legible h) (hexit : NoExits h)
    (hbuild : ∀ t, Follows g bound IsInstantiation (build t) (expected t)) (c : μ) :
    Follows g bound (fun _ => True)
      (Search.argumentsFor h build (g.parameters c) >>= fun arguments => Search.lift (h.construct c arguments))
      (g.apply expected c) := by
  have harguments := (follows_argumentsFor hg hlegible hbuild (g.parameters c)).mono fun _ _ => trivial
  have happly : g.apply expected c = (g.parameters c).mapM (g.argument expected) >>= fun arguments =>
      (g.construct c).map fun make => make arguments := by
    rw [TypeGraph.apply]
    cases g.construct c <;> rfl
  rw [happly]
  exact harguments.bind fun arguments => follows_construct hg hexit c arguments

theorem follows_firstOf (hg : Describes g h) (hlegible : Legible h) (hexit : NoExits h)
    (hbuild : ∀ t, Follows g bound IsInstantiation (build t) (expected t)) (typeName : String) (last : Option Fault)
    (constructors : List μ) :
    Follows g bound IsInstantiation
      (Search.firstOf h build typeName last (constructors.map fun c => (c, g.parameters c)))
      (constructors.findSome? (g.apply expected)) := by
  induction constructors generalizing last with
  | nil =>
    cases last with
    | none => exact Follows.failWith typeName _
    | some last => exact Follows.lift_returns (hlegible last) fun text => Follows.failWith typeName _
  | cons c constructors ih =>
    have hsome : (c :: constructors).findSome? (g.apply expected) =
        (g.apply expected c).or (constructors.findSome? (g.apply expected)) := by
      rw [List.findSome?_cons]
      cases g.apply expected c <;> rfl
    rw [hsome, List.map_cons]
    cases last <;> exact (follows_apply hg hlegible hexit hbuild c).attempt Follows.pure fun f =>
      Follows.lift_returns (hlegible f) fun _ => ih (some f)

theorem follows_withParameters (hg : Describes g h) {refusal : Fault → Prop} (constructors : List μ) :
    Follows g bound refusal (Search.withParameters h constructors)
      (some (constructors.map fun c => (c, g.parameters c))) := by
  induction constructors with
  | nil => exact Follows.pure []
  | cons c constructors ih =>
    exact (Follows.lift (hg.parameters c)).bind_some (ih.bind_some (Follows.pure _))

theorem follows_ofConstructors (hg : Describes g h) (hlegible : Legible h) (hexit : NoExits h)
    (hbuild : ∀ t, Follows g bound IsInstantiation (build t) (expected t)) (typeName : String)
    (constructors : List μ) :
    Follows g bound IsInstantiation
      (Search.ofConstructors h build typeName (constructors.map fun c => (c, g.parameters c)))
      (g.choose expected constructors) := by
  have hmap : (constructors.map fun c => (c, g.parameters c)).find? (fun c => c.2.isEmpty) =
      (constructors.find? fun c => (g.parameters c).isEmpty).map fun c => (c, g.parameters c) := List.find?_map
  rw [Search.ofConstructors, TypeGraph.choose, hmap]
  cases hfind : constructors.find? fun c => (g.parameters c).isEmpty with
  | some c =>
    change Follows g bound IsInstantiation _ ((g.construct c).map fun make => make [])
    rw [← Option.or_none (o := (g.construct c).map fun make => make [])]
    exact (follows_construct hg hexit c []).attempt Follows.pure fun f =>
      Follows.lift_returns (hlegible f) fun text => Follows.failWith typeName _
  | none =>
    have hsort : (constructors.mergeSort fun a b => (g.parameters a).length ≤ (g.parameters b).length).map
          (fun c => (c, g.parameters c)) =
        (constructors.map fun c => (c, g.parameters c)).mergeSort fun a b => a.2.length ≤ b.2.length :=
      List.map_mergeSort fun _ _ _ _ => rfl
    have hfirst := follows_firstOf hg hlegible hexit hbuild typeName none
      (constructors.mergeSort fun a b => (g.parameters a).length ≤ (g.parameters b).length)
    rw [hsort] at hfirst
    exact hfirst

theorem follows_ofType (hg : Describes g h) (hlegible : Legible h) (hexit : NoExits h)
    (hbuild : ∀ t, Follows g bound IsInstantiation (build t) (expected t)) (typeName : String) (t : τ) :
    Follows g bound IsInstantiation (Search.ofType h build typeName t) (g.ofType expected t) := by
  rw [Search.ofType, TypeGraph.ofType]
  refine (Follows.lift (hg.kind t)).bind_some ?_
  cases g.kind t with
  | string => exact Follows.pure _
  | value | enum | array => exact Follows.lift (always_defaultOf hg hlegible t)
  | abstractClass | interface => exact Follows.failWith typeName _
  | plainClass =>
    exact (Follows.lift (hg.constructors t)).bind_some
      ((follows_withParameters hg (g.constructors t)).bind_some
        (follows_ofConstructors hg hlegible hexit hbuild typeName (g.constructors t)))

end

/-! ### Remembering -/

variable {bound : Nat}

/-- What is remembered stays true if a failure is added. -/
theorem Sound.cons (hinj : Function.Injective g.typeName) {failures : Failures} (hs : Sound g bound failures) {t : τ}
    {depth : Nat} (ht : g.search bound depth t = none) : Sound g bound ((g.typeName t, (depth : Int)) :: failures) := by
  intro t' level hlevel
  rw [List.lookup_cons] at hlevel
  split at hlevel
  · next heq =>
    cases hlevel
    cases hinj (eq_of_beq heq)
    exact ⟨depth, rfl, ht⟩
  · exact hs t' level hlevel

theorem follows_noting (hinj : Function.Injective g.typeName) {depth : Nat} {t : τ} {search : Search σ Value}
    (hsearch : Follows g bound IsInstantiation search (g.search bound depth t)) :
    Follows g bound IsInstantiation (Search.noting (g.typeName t) depth search) (g.search bound depth t) := by
  intro failures s hs
  obtain ⟨ended, failures', s', hrun, hs', hended⟩ := hsearch failures s hs
  change ∃ ended failures' s', Search.noting (g.typeName t) depth search (failures, s) = (ended, failures', s') ∧ _
  rw [Search.noting, show search (failures, s) = _ from hrun]
  cases ht : g.search bound depth t with
  | some v =>
    rw [ht] at hended
    subst hended
    exact ⟨.ok v, failures', s', rfl, hs', rfl⟩
  | none =>
    rw [ht] at hended
    obtain ⟨f, rfl, e, rfl⟩ := hended
    refine ⟨_, _, s', rfl, ?_, _, rfl, e, rfl⟩
    -- The lesser of two levels is remembered, and the type fails at both.
    split
    · next level hlevel =>
      obtain ⟨depth', rfl, ht'⟩ := hs' t level hlevel
      rcases Nat.le_total depth depth' with hle | hle
      · rw [Int.min_eq_left (by omega)]
        exact hs'.cons hinj ht
      · rw [Int.min_eq_right (by omega)]
        exact hs'.cons hinj ht'
    · exact hs'.cons hinj ht

theorem follows_unlessFailed (hg : Describes g h) (hinj : Function.Injective g.typeName) {depth : Nat} {t : τ}
    {search : String → Search σ Value}
    (hsearch : Follows g bound IsInstantiation (search (g.typeName t)) (g.search bound depth t)) :
    Follows g bound IsInstantiation (Search.unlessFailed h depth t search) (g.search bound depth t) := by
  rw [Search.unlessFailed]
  refine (Follows.lift (hg.typeName t)).bind_some ?_
  intro failures s hs
  have hlookup : (Search.failureLevel? (g.typeName t) : Search σ (Option Int)).run (failures, s) =
      (.ok (failures.lookup (g.typeName t)), failures, s) := rfl
  rw [run_bind_of_ok hlookup]
  have hnoting := follows_noting hinj hsearch failures s hs
  cases hlevel : failures.lookup (g.typeName t) with
  | none => exact hnoting
  | some level =>
    dsimp only
    split
    · next hle =>
      -- What failed at a smaller depth fails here too, so nothing is lost by not trying.
      obtain ⟨depth', rfl, ht⟩ := hs t level hlevel
      rw [TypeGraph.search_eq_none_of_le ht (by omega)]
      exact Follows.failWith (g.typeName t) _ failures s hs
    · exact hnoting

/-- With as many levels left as the bound allows, the search with memory follows the one without. -/
theorem follows_build (hg : Describes g h) (hlegible : Legible h) (hexit : NoExits h)
    (hinj : Function.Injective g.typeName) (levels depth : Nat) (hdepth : depth + levels = bound + 1) (t : τ) :
    Follows g bound IsInstantiation (Search.build h bound levels depth t) (g.search bound depth t) := by
  induction levels generalizing depth t with
  | zero =>
    refine follows_unlessFailed hg hinj ?_
    rw [TypeGraph.search_of_lt (by omega)]
    exact Follows.failWith (g.typeName t) _
  | succ levels ih =>
    refine follows_unlessFailed hg hinj ?_
    rw [TypeGraph.search_of_le (by omega)]
    exact follows_ofType hg hlegible hexit (fun t => ih (depth + 1) (by omega) t) (g.typeName t) t

/-- The memory of the search changes no result. -/
theorem instanceOf_eq_search (hg : Describes g h) (hlegible : Legible h) (hexit : NoExits h)
    (hinj : Function.Injective g.typeName) (bound : Nat) (t : τ) (s : Session σ) :
    (∀ v, ((instanceOf h t bound 0).run s).1 = .ok v ↔ g.search bound 0 t = some v) ∧
    ((∃ e, ((instanceOf h t bound 0).run s).1 = .error (.fault (.instantiation e))) ↔ g.search bound 0 t = none) := by
  have hsound : Sound g bound [] := nofun
  obtain ⟨ended, failures, s', hrun, -, hended⟩ :=
    follows_build hg hlegible hexit hinj (bound + 1) 0 (by omega) t [] s hsound
  have hlevels : ((bound : Int) + 1 - 0).toNat = bound + 1 := by omega
  have hresult : ((instanceOf h t bound 0).run s).1 = ended := by
    change (instanceOf h t bound 0 s).1 = ended
    have hrun : Search.build h bound (bound + 1) 0 t ([], s) = (ended, failures, s') := hrun
    rw [instanceOf, hlevels, hrun]
  rw [hresult]
  cases hsearch : g.search bound 0 t with
  | some v =>
    rw [hsearch] at hended
    subst hended
    simp
  | none =>
    rw [hsearch] at hended
    obtain ⟨_, rfl, e, rfl⟩ := hended
    simp

/-! ### A graph with a cycle -/

inductive Part where
  | root | detour | wrapper | leaf | widget | int32
  deriving DecidableEq

namespace Part

def typeName : Part → String
  | root => "Sample.Root"
  | detour => "Sample.Detour"
  | wrapper => "Sample.Wrapper"
  | leaf => "Sample.Leaf"
  | widget => "Sample.Widget"
  | int32 => "System.Int32"

/-- The types of the parameters of the constructors. -/
def constructors : Part → List (List Part)
  | root => [[wrapper, widget], [detour]]
  | detour => [[wrapper], [root, int32]]
  | wrapper => [[leaf]]
  | leaf => [[]]
  | widget => [[int32], [int32, int32]]
  | int32 => []

/-- Of the constructors, the first one of widgets fails. -/
def graph : TypeGraph Part (Part × List Part) where
  typeName := typeName
  kind t := if t = int32 then .value else .plainClass
  members _ := []
  element t := t
  newArray t _ := .array t.typeName []
  created _ := none
  constructors t := t.constructors.map fun types => (t, types)
  parameters c := c.2.map fun type => ⟨"", type, type.typeName, 0, false, none⟩
  construct c := if c = (widget, [int32]) then none else some (.object c.1.typeName)

theorem typeName_injective : Function.Injective graph.typeName := by
  intro a b h
  revert h
  cases a <;> cases b <;> decide

end Part

theorem instanceOf_eq_search_part :
    Describes Part.graph (Part.graph.host (.fault default)) ∧ Legible (Part.graph.host (.fault default)) ∧
    NoExits (Part.graph.host (.fault default)) ∧ Function.Injective Part.graph.typeName ∧
    ((instanceOf (Part.graph.host (.fault default)) .root 2 0).run (Session.start ())).1 =
      .ok (.object "Sample.Root" [.object "Sample.Wrapper" [.object "Sample.Leaf" []],
        .object "Sample.Widget" [.int 0, .int 0]]) ∧
    ∃ e, ((instanceOf (Part.graph.host (.fault default)) .detour 1 0).run (Session.start ())).1 =
      .error (.fault (.instantiation e)) := by
  have hg := describes_host Part.graph (.fault default)
  have hlegible := legible_host Part.graph (.fault default)
  have hexit := noExits_host Part.graph default
  have hinj := Part.typeName_injective
  refine ⟨hg, hlegible, hexit, hinj, ?_, ?_⟩
  · refine ((instanceOf_eq_search hg hlegible hexit hinj 2 .root (Session.start ())).1 _).mpr ?_
    cbv
  · refine (instanceOf_eq_search hg hlegible hexit hinj 1 .detour (Session.start ())).2.mpr ?_
    cbv

/-- An exit that a constructor asks for is not held back, although another constructor would succeed. -/
theorem instanceOf_exit_of_search :
    Describes Part.graph (Part.graph.host (.exit (.systemExit "stop"))) ∧ Function.Injective Part.graph.typeName ∧
    Part.graph.search 10 0 .widget = some (.object "Sample.Widget" [.int 0, .int 0]) ∧
    ((instanceOf (Part.graph.host (.exit (.systemExit "stop"))) .widget 10 0).run (Session.start ())).1 =
      .error (.exit (.systemExit "stop")) := by
  refine ⟨describes_host _ _, Part.typeName_injective, ?_, ?_⟩
  · cbv
  · cbv

end CilProbe.Synthesis
