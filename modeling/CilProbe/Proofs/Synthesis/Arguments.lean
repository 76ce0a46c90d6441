import CilProbe.Proofs.Failure
import CilProbe.Proofs.Synthesis.Described

/-!
# Arguments that are made apart from each other

A host that always gives the same answers (`Repeats`) resolves a parameter with an input in the same way in every
session, so the arguments of a method are what its parameters give one by one: `ending_resolveAll`.  Then an argument
depends on nothing but its own parameter and input, and the first parameter that fails is the one that is reported
(`ResolvedApart`, `arguments_apart`).
-/

namespace CilProbe.Synthesis

variable {τ μ σ α β : Type}

/-! ### Actions that always end in the same way -/

/-- How an action ends in a session. -/
def ending (act : Action σ α) (s : Session σ) : Except Raised α := (act.run s).1

/-- The action ends in every session as in any other; the sessions may change meanwhile. -/
def Determined (act : Action σ α) : Prop := ∀ s s', ending act s = ending act s'

theorem ending_bind {next : α → Action σ β} (hnext : ∀ a, Determined (next a)) (act : Action σ α) (s s' : Session σ) :
    ending (act >>= next) s = ending act s >>= fun a => ending (next a) s' := by
  rcases hact : act.run s with ⟨raised | a, after⟩
  · rw [ending, ending, run_bind_of_error hact, hact]
    rfl
  · have hsame : ending (next a) after = ending (next a) s' := hnext a after s'
    rw [ending] at hsame
    rw [ending, ending, run_bind_of_ok hact, hact, hsame]
    rfl

namespace Determined

variable {act : Action σ α} {next : α → Action σ β}

theorem pure (a : α) : Determined (Pure.pure a : Action σ α) := fun _ _ => rfl

theorem fail (f : Fault) : Determined (Action.fail f : Action σ α) := fun _ _ => rfl

theorem bind (hact : Determined act) (hnext : ∀ a, Determined (next a)) : Determined (act >>= next) := by
  intro s s'
  rw [ending_bind hnext act s s', ending_bind hnext act s' s', hact s s']

theorem attempt (hact : Determined act) : Determined (Action.attempt act) := by
  intro s s'
  have hsame := hact s s'
  unfold ending at hsame ⊢
  change (Action.attempt act s).1 = (Action.attempt act s').1
  unfold Action.attempt
  change (act s).1 = (act s').1 at hsame
  rcases hs : act s with ⟨ended, t⟩
  rcases hs' : act s' with ⟨ended', t'⟩
  rw [hs, hs'] at hsame
  cases hsame
  rcases ended with (f | e) | a <;> rfl

end Determined

/-! ### Hosts that always give the same answers -/

/-- What a host is asked in order to resolve a parameter always has the same answer, or the same failure. -/
structure Repeats (h : Host τ μ σ) : Prop where
  typeName t : Determined (h.typeName t)
  typeKind t : Determined (h.typeKind t)
  enumMembers t : Determined (h.enumMembers t)
  elementType t : Determined (h.elementType t)
  newArray t length : Determined (h.newArray t length)
  createDefault t : Determined (h.createDefault t)
  convert text t : Determined (h.convert text t)
  text f : Determined (h.text f)

variable {h : Host τ μ σ} {p : Parameter τ} {ps : List (Parameter τ)} {inputs : List (Option String)}

theorem determined_runtimeDefault (hh : Repeats h) (t : τ) : Determined (runtimeDefault h t) := by
  refine (hh.createDefault t).attempt.bind fun ended => ?_
  cases ended with
  | ok v => exact Determined.pure v
  | error f => exact (hh.text f).bind fun _ => Determined.pure _

theorem determined_defaultOf (hh : Repeats h) (t : τ) : Determined (defaultOf h t) := by
  refine (hh.typeName t).bind fun name => ?_
  cases Conversion.default? name with
  | some v => exact Determined.pure v
  | none =>
    refine (hh.typeKind t).bind fun kind => ?_
    cases kind with
    | enum =>
      refine (hh.enumMembers t).bind fun members => ?_
      cases members with
      | nil => exact determined_runtimeDefault hh t
      | cons member _ => exact Determined.pure member.2
    | array => exact (hh.elementType t).bind fun element => hh.newArray element 0
    | value => exact determined_runtimeDefault hh t
    | string | plainClass | interface | abstractClass => exact Determined.pure _

theorem determined_readerFor (hh : Repeats h) (p : Parameter τ) (kind : TypeKind) (text : String) :
    Determined (readerFor h p kind text) := by
  rw [readerFor]
  split
  · refine (hh.enumMembers p.type).bind fun members => ?_
    cases Conversion.enumMember members text with
    | ok v => exact Determined.pure v
    | error reason => exact Determined.fail _
  · cases Conversion.reader? p.typeName with
    | some read =>
      dsimp only
      cases read text with
      | ok v => exact Determined.pure v
      | error reason => exact Determined.fail _
    | none => exact hh.convert text p.type

theorem determined_convert (hh : Repeats h) (p : Parameter τ) (text : String) : Determined (convert h p text) := by
  refine (hh.typeKind p.type).bind fun kind => ?_
  split
  · exact Determined.pure _
  · refine (determined_readerFor hh p kind text).attempt.bind fun ended => ?_
    rcases ended with f | v
    · cases f with
      | conversion e => exact Determined.fail _
      | _ => exact (hh.text _).bind fun _ => Determined.fail _
    · exact Determined.pure v

theorem determined_resolve (hh : Repeats h) (p : Parameter τ) (input : Option String) :
    Determined (resolve h p input) := by
  cases input with
  | some text => exact determined_convert hh p text
  | none =>
    rw [resolve]
    split
    · exact Determined.pure _
    · exact determined_defaultOf hh p.type

/-! ### Inputs -/

/-- The input for a place; a missing one counts as none. -/
def inputFor (inputs : List (Option String)) (k : Nat) : Option String := inputs[k]?.join

theorem inputAt_natCast (inputs : List (Option String)) (k : Nat) : inputAt inputs k = .ok (inputFor inputs k) := by
  have hat : Position.at? inputs (k : Int) = inputs[k]? := rfl
  unfold inputAt inputFor
  rw [hat]
  cases inputs[k]? with
  | some input => rfl
  | none => simp

theorem inputFor_append_replicate (inputs : List (Option String)) (m k : Nat) :
    inputFor (inputs ++ List.replicate m none) k = inputFor inputs k := by
  unfold inputFor
  by_cases hk : k < inputs.length
  · rw [List.getElem?_append_left hk]
  · rw [List.getElem?_append_right (by omega), List.getElem?_eq_none (by omega : inputs.length ≤ k),
      List.getElem?_replicate]
    split <;> rfl

/-! ### Runs -/

section

variable {method : μ} {s s' : Session σ}

theorem run_arguments (hps : (h.parameters method).run s = (.ok ps, s')) (hlength : inputs.length ≤ ps.length) :
    (arguments h method inputs).run s = (resolveAll h inputs ps).run s' := by
  rw [arguments, run_bind_of_ok hps, if_neg (Nat.not_lt.2 hlength)]

/-- More inputs than parameters are refused right after the parameters are known. -/
theorem run_arguments_of_lt (hps : (h.parameters method).run s = (.ok ps, s')) (hlength : ps.length < inputs.length) :
    (arguments h method inputs).run s = (.error (.fault (.conversion (tooManyInputs ps.length inputs))), s') := by
  rw [arguments, run_bind_of_ok hps, if_pos hlength]
  rfl

end

/-- Each parameter is resolved with its own input, in whatever session. -/
theorem ending_resolveAll (hh : Repeats h) (hps : ∀ p ∈ ps, 0 ≤ p.position) (s s' : Session σ) :
    ending (resolveAll h inputs ps) s =
      ps.mapM fun p => ending (resolve h p (inputFor inputs p.position.toNat)) s' := by
  induction ps generalizing s with
  | nil => rfl
  | cons p ps ih =>
    have hinput := inputAt_natCast inputs p.position.toNat
    rw [Int.toNat_of_nonneg (hps p (by simp))] at hinput
    have hrest (s : Session σ) := ih (fun q hq => hps q (by simp [hq])) s
    have hdetermined (v : Value) : Determined (do return v :: (← resolveAll h inputs ps)) :=
      Determined.bind (fun s₁ s₂ => (hrest s₁).trans (hrest s₂).symm) fun vs => Determined.pure (v :: vs)
    have hsame := determined_resolve hh p (inputFor inputs p.position.toNat) s s'
    rw [resolveAll, hinput]
    dsimp only
    rw [ending_bind hdetermined _ s s', List.mapM_cons, hsame, ← hrest s']
    congr 1
    funext v
    exact ending_bind (fun vs => Determined.pure (v :: vs)) _ s' s'

/-- What counts of the inputs is the one for each place. -/
private theorem resolveAll_congr {others : List (Option String)} (hps : ∀ p ∈ ps, 0 ≤ p.position)
    (hinputs : ∀ k, inputFor others k = inputFor inputs k) : resolveAll h others ps = resolveAll h inputs ps := by
  induction ps with
  | nil => rfl
  | cons p ps ih =>
    have hat := inputAt_natCast inputs p.position.toNat
    have hat' := inputAt_natCast others p.position.toNat
    rw [Int.toNat_of_nonneg (hps p (by simp))] at hat hat'
    rw [resolveAll, resolveAll, hat, hat', hinputs, ih fun q hq => hps q (by simp [hq])]

/-- The position of each parameter is its place in the list. -/
def InOrder (ps : List (Parameter τ)) : Prop := ∀ (k : Nat) (p : Parameter τ), ps[k]? = some p → p.position = k

theorem InOrder.nonneg (horder : InOrder ps) : ∀ p ∈ ps, 0 ≤ p.position := by
  intro p hp
  obtain ⟨k, hk⟩ := List.mem_iff_getElem?.1 hp
  have hposition := horder k p hk
  omega

/-! ### Arguments -/

/-- What the arguments of a method with these parameters come to for these inputs. -/
structure ResolvedApart (h : Host τ μ σ) (method : μ) (ps : List (Parameter τ)) (inputs : List (Option String)) :
    Prop where
  /-- There are arguments if each parameter can be resolved. -/
  succeeds_iff : ∀ s s', (∃ vs, ending (arguments h method inputs) s = .ok vs) ↔
    ∀ (k : Nat) (p : Parameter τ), ps[k]? = some p → ∃ v, ending (resolve h p (inputFor inputs k)) s' = .ok v
  /-- There are as many as parameters, and each is what its parameter gives for its input. -/
  resolved : ∀ s s' vs, ending (arguments h method inputs) s = .ok vs → vs.length = ps.length ∧
    ∀ (k : Nat) (p : Parameter τ), ps[k]? = some p →
      ∃ v, vs[k]? = some v ∧ ending (resolve h p (inputFor inputs k)) s' = .ok v
  /-- Text that is given is converted. -/
  converted : ∀ s s' vs, ending (arguments h method inputs) s = .ok vs → ∀ (k : Nat) (p : Parameter τ) (text : String),
    ps[k]? = some p → inputs[k]? = some (some text) →
      ∃ v, vs[k]? = some v ∧ ending (convert h p text) s' = .ok v
  /-- The other inputs do not matter to an argument. -/
  unchanged : ∀ (others : List (Option String)) (k : Nat), others.length ≤ ps.length →
    inputFor others k = inputFor inputs k → ∀ s s' vs vs', ending (arguments h method inputs) s = .ok vs →
      ending (arguments h method others) s' = .ok vs' → vs'[k]? = vs[k]?
  /-- The first parameter that fails is the one that counts. -/
  fails_iff : ∀ s s' raised, ending (arguments h method inputs) s = .error raised ↔
    ∃ (k : Nat) (p : Parameter τ), ps[k]? = some p ∧ ending (resolve h p (inputFor inputs k)) s' = .error raised ∧
      ∀ j < k, ∀ q, ps[j]? = some q → ∃ v, ending (resolve h q (inputFor inputs j)) s' = .ok v
  /-- Places without an input may as well be left out. -/
  padded : ∀ m, inputs.length + m ≤ ps.length → ∀ s,
    (arguments h method (inputs ++ List.replicate m none)).run s = (arguments h method inputs).run s

section

variable {method : μ} {vs : List Value} (hh : Repeats h) (hps : Always (h.parameters method) (.ok ps))
  (horder : InOrder ps)
include hps horder

private theorem arguments_padded {m : Nat} (hlength : inputs.length + m ≤ ps.length) (s : Session σ) :
    (arguments h method (inputs ++ List.replicate m none)).run s = (arguments h method inputs).run s := by
  obtain ⟨after, hrun⟩ := hps s
  rw [run_arguments hrun (by simp; omega), run_arguments hrun (by omega),
    resolveAll_congr horder.nonneg (inputFor_append_replicate inputs m)]

include hh

theorem ending_arguments (hlength : inputs.length ≤ ps.length) (s s' : Session σ) :
    ending (arguments h method inputs) s =
      ps.mapM fun p => ending (resolve h p (inputFor inputs p.position.toNat)) s' := by
  obtain ⟨after, hrun⟩ := hps s
  rw [ending, run_arguments hrun hlength]
  exact ending_resolveAll hh horder.nonneg after s'

private theorem arguments_succeed_iff (hlength : inputs.length ≤ ps.length) (s s' : Session σ) :
    (∃ vs, ending (arguments h method inputs) s = .ok vs) ↔
      ∀ (k : Nat) (p : Parameter τ), ps[k]? = some p → ∃ v, ending (resolve h p (inputFor inputs k)) s' = .ok v := by
  rw [ending_arguments hh hps horder hlength s s', exists_mapM_eq_ok_iff]
  constructor
  · intro hall k p hp
    have hv := hall p (List.mem_iff_getElem?.2 ⟨k, hp⟩)
    rwa [horder k p hp] at hv
  · intro hall p hp
    obtain ⟨k, hk⟩ := List.mem_iff_getElem?.1 hp
    have hv := hall k p hk
    rwa [horder k p hk]

private theorem arguments_resolved (hlength : inputs.length ≤ ps.length) (s s' : Session σ)
    (hvs : ending (arguments h method inputs) s = .ok vs) : vs.length = ps.length ∧
      ∀ (k : Nat) (p : Parameter τ), ps[k]? = some p →
        ∃ v, vs[k]? = some v ∧ ending (resolve h p (inputFor inputs k)) s' = .ok v := by
  rw [ending_arguments hh hps horder hlength s s'] at hvs
  have hmap := map_ok_of_mapM_eq_ok hvs
  constructor
  · simpa using congrArg List.length hmap
  · intro k p hp
    have hk := congrArg (·[k]?) hmap
    simp only [List.getElem?_map, hp, Option.map_some, horder k p hp, Int.toNat_natCast] at hk
    obtain ⟨v, hv, hend⟩ := Option.map_eq_some_iff.1 hk
    exact ⟨v, hv, hend.symm⟩

private theorem arguments_unchanged {others : List (Option String)} {vs' : List Value} {k : Nat}
    (hlength : inputs.length ≤ ps.length) (hothers : others.length ≤ ps.length)
    (hinput : inputFor others k = inputFor inputs k) {s s' : Session σ}
    (hvs : ending (arguments h method inputs) s = .ok vs) (hvs' : ending (arguments h method others) s' = .ok vs') :
    vs'[k]? = vs[k]? := by
  obtain ⟨hcount, hall⟩ := arguments_resolved hh hps horder hlength s s hvs
  obtain ⟨hcount', hall'⟩ := arguments_resolved hh hps horder hothers s' s hvs'
  cases hp : ps[k]? with
  | none =>
    have hk := List.getElem?_eq_none_iff.1 hp
    rw [List.getElem?_eq_none (by omega), List.getElem?_eq_none (by omega)]
  | some p =>
    obtain ⟨v, hv, hend⟩ := hall k p hp
    obtain ⟨v', hv', hend'⟩ := hall' k p hp
    rw [hinput, hend] at hend'
    cases hend'
    rw [hv, hv']

private theorem arguments_fail_iff (hlength : inputs.length ≤ ps.length) (s s' : Session σ) (raised : Raised) :
    ending (arguments h method inputs) s = .error raised ↔
      ∃ (k : Nat) (p : Parameter τ), ps[k]? = some p ∧ ending (resolve h p (inputFor inputs k)) s' = .error raised ∧
        ∀ j < k, ∀ q, ps[j]? = some q → ∃ v, ending (resolve h q (inputFor inputs j)) s' = .ok v := by
  rw [ending_arguments hh hps horder hlength s s', mapM_eq_error_iff]
  have hplace {k : Nat} {p : Parameter τ} (hp : ps[k]? = some p) : p.position.toNat = k := by
    rw [horder k p hp, Int.toNat_natCast]
  constructor
  · rintro ⟨k, p, hp, hend, hbefore⟩
    rw [hplace hp] at hend
    refine ⟨k, p, hp, hend, ?_⟩
    intro j hj q hq
    have hv := hbefore j hj q hq
    rwa [hplace hq] at hv
  · rintro ⟨k, p, hp, hend, hbefore⟩
    refine ⟨k, p, hp, by rwa [hplace hp], ?_⟩
    intro j hj q hq
    rw [hplace hq]
    exact hbefore j hj q hq

end

/-- The host with the defaults of another one. -/
def withDefaults (h other : Host τ μ σ) : Host τ μ σ :=
  { h with
    typeName := other.typeName
    elementType := other.elementType
    newArray := other.newArray
    createDefault := other.createDefault }

/-- The arguments of a method whose parameters stand in order, on a host that always gives the same answers.  Up to as
many inputs as there are parameters, each argument is resolved on its own; more inputs are refused before anything is
resolved; and text that is given for a parameter is converted, whatever defaults there are. -/
theorem arguments_apart {method : μ} (hh : Repeats h) (hps : Always (h.parameters method) (.ok ps))
    (horder : InOrder ps) :
    (∀ inputs, inputs.length ≤ ps.length → ResolvedApart h method ps inputs) ∧
    (∀ inputs, ps.length < inputs.length → ∀ s, (arguments h method inputs).run s =
      (.error (.fault (.conversion (tooManyInputs ps.length inputs))), ((h.parameters method).run s).2)) ∧
    ∀ (other : Host τ μ σ) (p : Parameter τ) (isOptional : Bool) (declared : Option Value) (text : String),
      resolve (withDefaults h other) { p with isOptional, declared } (some text) = convert h p text := by
  refine ⟨fun inputs hlength => ?_, fun inputs hlength s => ?_, fun _ _ _ _ _ => rfl⟩
  · exact {
      succeeds_iff := arguments_succeed_iff hh hps horder hlength
      resolved := fun s s' vs hvs => arguments_resolved hh hps horder hlength s s' hvs
      converted := by
        intro s s' vs hvs k p text hp htext
        obtain ⟨v, hv, hend⟩ := (arguments_resolved hh hps horder hlength s s' hvs).2 k p hp
        rw [inputFor, htext] at hend
        exact ⟨v, hv, hend⟩
      unchanged := fun others k hothers hinput s s' vs vs' hvs hvs' =>
        arguments_unchanged hh hps horder hlength hothers hinput hvs hvs'
      fails_iff := arguments_fail_iff hh hps horder hlength
      padded := fun m hm s => arguments_padded hps horder hm s }
  · obtain ⟨after, hrun⟩ := hps s
    rw [run_arguments_of_lt hrun hlength, hrun]

/-! ### The host of a graph -/

theorem repeats_host (g : TypeGraph τ μ) (raised : Raised) : Repeats (g.host raised) where
  typeName _ _ _ := rfl
  typeKind _ _ _ := rfl
  enumMembers _ _ _ := rfl
  elementType _ _ _ := rfl
  newArray _ _ _ _ := rfl
  createDefault t s s' := by
    change ending (orRaise (.fault default) (g.created t)) s = ending (orRaise (.fault default) (g.created t)) s'
    cases g.created t <;> rfl
  convert _ _ _ _ := rfl
  text _ _ _ := rfl

private def repeatParameters : List (Parameter Bool) :=
  [⟨"text", true, "System.String", 0, false, none⟩, ⟨"count", false, "System.Int32", 1, true, some (.int 3)⟩]

private def repeatHost : Host Bool Unit Unit :=
  TypeGraph.host {
    typeName t := if t then "System.String" else "System.Int32"
    kind t := if t then .string else .value
    members _ := []
    element t := t
    newArray _ _ := .none
    created _ := none
    constructors _ := []
    parameters _ := repeatParameters
    construct _ := none } (.fault default)

/-- The empty text is an input like any other, and a third input is one too many. -/
theorem arguments_apart_repeat :
    (∃ vs, ending (arguments repeatHost () [some ""]) (Session.start ()) = .ok vs ∧ vs[0]? = some (.text "") ∧
      vs[1]? = some (.int 3)) ∧
    (arguments repeatHost () [none, none, some "7"]).run (Session.start ()) =
      (.error (.fault (.conversion ⟨"<arguments>", "2 parameters", some "None None 7", .tooManyInputs 3⟩)),
        Session.start ()) := by
  have horder : InOrder repeatParameters := by
    intro k p hp
    match k, hp with
    | 0, rfl => rfl
    | 1, rfl => rfl
  have hall := @arguments_apart _ _ _ repeatHost repeatParameters () (repeats_host _ _) (fun s => ⟨s, rfl⟩) horder
  constructor
  · have hone := hall.1 [some ""] (by decide)
    obtain ⟨vs, hvs⟩ := (hone.succeeds_iff (Session.start ()) (Session.start ())).2 (by
      intro k p hp
      match k, hp with
      | 0, rfl => exact ⟨_, rfl⟩
      | 1, rfl => exact ⟨_, rfl⟩)
    obtain ⟨-, hplaces⟩ := hone.resolved _ (Session.start ()) vs hvs
    obtain ⟨first, hfirst, hends⟩ := hplaces 0 _ rfl
    obtain ⟨second, hsecond, hends'⟩ := hplaces 1 _ rfl
    cases hends
    cases hends'
    exact ⟨vs, hvs, hfirst, hsecond⟩
  · exact hall.2.1 [none, none, some "7"] (by decide) (Session.start ())

end CilProbe.Synthesis
