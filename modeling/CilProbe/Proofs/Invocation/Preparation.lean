import CilProbe.Proofs.Invocation.Alike

/-!
# Preparing a call

The receiver and the arguments of a call are made by queries, conversions, defaults and constructors.  So two hosts
prepare calls alike if these operations are alike (`PreparesAlike`); for arguments alone, fewer of them matter
(`ArgumentsAlike`).  The main results are `alike_arguments`, `alike_instanceOf` and `alike_prepare`.

A host and its record are alike.  So preparing on a recorded host adds calls to the record, but none of a method,
whatever constructors do and however they fail: `prepares_prepare`.
-/

namespace CilProbe.Invocation

open Synthesis

variable {τ μ σ ρ α : Type}

/-- The operations by which arguments are made are alike. -/
structure ArgumentsAlike (E : Session σ → Session ρ → Prop) (h : Host τ μ σ) (h' : Host τ μ ρ) : Prop where
  typeName t : Alike E (h.typeName t) (h'.typeName t)
  typeKind t : Alike E (h.typeKind t) (h'.typeKind t)
  enumMembers t : Alike E (h.enumMembers t) (h'.enumMembers t)
  elementType t : Alike E (h.elementType t) (h'.elementType t)
  newArray t length : Alike E (h.newArray t length) (h'.newArray t length)
  createDefault t : Alike E (h.createDefault t) (h'.createDefault t)
  convert text t : Alike E (h.convert text t) (h'.convert text t)
  text f : Alike E (h.text f) (h'.text f)
  parameters m : Alike E (h.parameters m) (h'.parameters m)

/-- The operations by which calls are prepared are alike. -/
structure PreparesAlike (E : Session σ → Session ρ → Prop) (h : Host τ μ σ) (h' : Host τ μ ρ) : Prop
    extends ArgumentsAlike E h h' where
  constructors t : Alike E (h.constructors t) (h'.constructors t)
  construct m arguments : Alike E (h.construct m arguments) (h'.construct m arguments)
  describe m : Alike E (h.describe m) (h'.describe m)
  declaringType m : Alike E (h.declaringType m) (h'.declaringType m)

variable {E : Session σ → Session ρ → Prop} {h : Host τ μ σ} {h' : Host τ μ ρ}

theorem alike_fail (f : Fault) : Alike E (Action.fail f : Action σ α) (Action.fail f) := Alike.throw _

/-! ### Arguments -/

section

variable (halike : ArgumentsAlike E h h')
include halike

theorem alike_runtimeDefault (type : τ) : Alike E (runtimeDefault h type) (runtimeDefault h' type) := by
  refine (halike.createDefault type).attempt.bind fun ended => ?_
  cases ended with
  | ok v => exact Alike.pure v
  | error f => exact (halike.text f).bind fun _ => Alike.pure _

theorem alike_defaultOf (type : τ) : Alike E (defaultOf h type) (defaultOf h' type) := by
  refine (halike.typeName type).bind fun name => ?_
  cases Conversion.default? name with
  | some v => exact Alike.pure v
  | none =>
    refine (halike.typeKind type).bind fun kind => ?_
    cases kind with
    | enum =>
      refine (halike.enumMembers type).bind fun members => ?_
      cases members with
      | nil => exact alike_runtimeDefault halike type
      | cons member _ => exact Alike.pure member.2
    | array => exact (halike.elementType type).bind fun element => halike.newArray element 0
    | value => exact alike_runtimeDefault halike type
    | string | plainClass | interface | abstractClass => exact Alike.pure _

theorem alike_readerFor (p : Parameter τ) (kind : TypeKind) (text : String) :
    Alike E (readerFor h p kind text) (readerFor h' p kind text) := by
  rw [readerFor, readerFor]
  split
  · refine (halike.enumMembers p.type).bind fun members => ?_
    cases Conversion.enumMember members text with
    | ok v => exact Alike.pure v
    | error reason => exact alike_fail _
  · cases Conversion.reader? p.typeName with
    | some read =>
      cases hread : read text with
      | ok v => simpa only [hread] using Alike.pure v
      | error reason => simpa only [hread] using alike_fail _
    | none => exact halike.convert text p.type

theorem alike_convert (p : Parameter τ) (text : String) : Alike E (convert h p text) (convert h' p text) := by
  rw [convert, convert]
  refine (halike.typeKind p.type).bind fun kind => ?_
  split
  · exact Alike.pure _
  · refine (alike_readerFor halike p kind text).attempt.bind fun ended => ?_
    cases ended with
    | ok v => exact Alike.pure v
    | error f =>
      cases f with
      | conversion e => exact alike_fail _
      | _ => exact (halike.text _).bind fun _ => alike_fail _

theorem alike_resolve (p : Parameter τ) (input : Option String) : Alike E (resolve h p input) (resolve h' p input) := by
  cases input with
  | some text => exact alike_convert halike p text
  | none =>
    rw [resolve, resolve]
    split
    · exact Alike.pure _
    · exact alike_defaultOf halike p.type

theorem alike_resolveAll (inputs : List (Option String)) (ps : List (Parameter τ)) :
    Alike E (resolveAll h inputs ps) (resolveAll h' inputs ps) := by
  induction ps with
  | nil => exact Alike.pure []
  | cons p ps ih =>
    rw [resolveAll, resolveAll]
    cases inputAt inputs p.position with
    | error f => exact alike_fail f
    | ok input => exact (alike_resolve halike p input).bind fun v => ih.bind fun vs => Alike.pure (v :: vs)

theorem alike_arguments (method : μ) (inputs : List (Option String)) :
    Alike E (arguments h method inputs) (arguments h' method inputs) := by
  rw [arguments, arguments]
  refine (halike.parameters method).bind fun parameters => ?_
  split
  · exact (alike_fail _).bind fun _ => alike_resolveAll halike inputs parameters
  · exact alike_resolveAll halike inputs parameters

end

/-! ### Instances -/

theorem alike_failWith (typeName : String) (reason : InstantiationReason) :
    Alike (InSearch E) (Search.failWith typeName reason : Search σ α) (Search.failWith typeName reason) :=
  Alike.throw _

/-- What is remembered of a search that ended in some way. -/
def noted (typeName : String) (depth : Int) (failures : Failures) : Except Raised α → Failures
  | .error (.fault (.instantiation _)) =>
    (typeName, match failures.lookup typeName with
      | some level => min depth level
      | none => depth) :: failures
  | _ => failures

theorem run_noting (typeName : String) (depth : Int) (search : Search σ α) (state : Failures × Session σ) :
    (Search.noting typeName depth search).run state =
      ((search.run state).1, noted typeName depth (search.run state).2.1 (search.run state).1,
        (search.run state).2.2) := by
  change Search.noting typeName depth search state =
    ((search state).1, noted typeName depth (search state).2.1 (search state).1, (search state).2.2)
  rw [Search.noting]
  rcases search state with ⟨(f | e) | a, failures, s⟩
  · cases f <;> rfl
  · rfl
  · rfl

theorem alike_noting (typeName : String) (depth : Int) {search : Search σ α} {search' : Search ρ α}
    (hsearch : Alike (InSearch E) search search') :
    Alike (InSearch E) (Search.noting typeName depth search) (Search.noting typeName depth search') := by
  intro x y hxy
  obtain ⟨hended, hfailures, hE⟩ := hsearch x y hxy
  rw [run_noting, run_noting, hended, hfailures]
  exact ⟨rfl, rfl, hE⟩

section

variable (halike : PreparesAlike E h h') {build : τ → Search σ Value} {build' : τ → Search ρ Value}
include halike

theorem alike_argumentsFor (hbuild : ∀ t, Alike (InSearch E) (build t) (build' t))
    (ps : List (Parameter τ)) :
    Alike (InSearch E) (Search.argumentsFor h build ps) (Search.argumentsFor h' build' ps) := by
  induction ps with
  | nil => exact Alike.pure []
  | cons p ps ih =>
    have hrest (v : Value) := ih.bind fun vs => Alike.pure (v :: vs)
    rw [Search.argumentsFor, Search.argumentsFor]
    refine (halike.typeKind p.type).lift.bind fun kind => ?_
    split
    · exact (alike_defaultOf halike.toArgumentsAlike p.type).lift.bind hrest
    · exact (hbuild p.type).bind hrest

theorem alike_firstOf (hbuild : ∀ t, Alike (InSearch E) (build t) (build' t)) (typeName : String)
    (last : Option Fault) (constructors : List (μ × List (Parameter τ))) :
    Alike (InSearch E) (Search.firstOf h build typeName last constructors)
      (Search.firstOf h' build' typeName last constructors) := by
  induction constructors generalizing last with
  | nil =>
    cases last with
    | none => exact alike_failWith _ _
    | some last => exact (halike.text last).lift.bind fun _ => alike_failWith _ _
  | cons c constructors ih =>
    have hconstruct : Alike (InSearch E)
        (do Search.lift (h.construct c.1 (← Search.argumentsFor h build c.2)))
        (do Search.lift (h'.construct c.1 (← Search.argumentsFor h' build' c.2))) :=
      (alike_argumentsFor halike hbuild c.2).bind fun arguments => (halike.construct c.1 arguments).lift
    cases last
    all_goals
      refine hconstruct.searchAttempt.bind fun ended => ?_
      cases ended with
      | ok v => exact Alike.pure v
      | error f => exact (halike.text f).lift.bind fun _ => ih (some f)

theorem alike_withParameters (constructors : List μ) :
    Alike (InSearch E) (Search.withParameters h constructors) (Search.withParameters h' constructors) := by
  induction constructors with
  | nil => exact Alike.pure []
  | cons c constructors ih =>
    exact (halike.parameters c).lift.bind fun parameters => ih.bind fun _ => Alike.pure _

theorem alike_ofConstructors (hbuild : ∀ t, Alike (InSearch E) (build t) (build' t)) (typeName : String)
    (constructors : List (μ × List (Parameter τ))) :
    Alike (InSearch E) (Search.ofConstructors h build typeName constructors)
      (Search.ofConstructors h' build' typeName constructors) := by
  rw [Search.ofConstructors, Search.ofConstructors]
  cases constructors.find? fun c => c.2.isEmpty with
  | some c =>
    refine (halike.construct c.1 []).lift.searchAttempt.bind fun ended => ?_
    cases ended with
    | ok v => exact Alike.pure v
    | error f => exact (halike.text f).lift.bind fun _ => alike_failWith _ _
  | none => exact alike_firstOf halike hbuild typeName none _

theorem alike_ofType (hbuild : ∀ t, Alike (InSearch E) (build t) (build' t)) (typeName : String)
    (type : τ) :
    Alike (InSearch E) (Search.ofType h build typeName type) (Search.ofType h' build' typeName type) := by
  refine (halike.typeKind type).lift.bind fun kind => ?_
  cases kind with
  | string => exact Alike.pure _
  | value | enum | array => exact (alike_defaultOf halike.toArgumentsAlike type).lift
  | abstractClass | interface => exact alike_failWith _ _
  | plainClass =>
    refine (halike.constructors type).lift.bind fun constructors => ?_
    exact (alike_withParameters halike constructors).bind fun cs => alike_ofConstructors halike hbuild typeName cs

theorem alike_unlessFailed (depth : Int) (type : τ) {search : String → Search σ Value}
    {search' : String → Search ρ Value} (hsearch : ∀ name, Alike (InSearch E) (search name) (search' name)) :
    Alike (InSearch E) (Search.unlessFailed h depth type search)
      (Search.unlessFailed h' depth type search') := by
  refine (halike.typeName type).lift.bind fun typeName => ?_
  refine (Alike.failureLevel? typeName).bind fun level? => ?_
  have hnoting := alike_noting typeName depth (hsearch typeName)
  cases level? with
  | none => exact hnoting
  | some level =>
    dsimp only
    split
    · exact alike_failWith _ _
    · exact hnoting

theorem alike_build (bound : Int) (levels : Nat) (depth : Int) (type : τ) :
    Alike (InSearch E) (Search.build h bound levels depth type)
      (Search.build h' bound levels depth type) := by
  induction levels generalizing depth type with
  | zero => exact alike_unlessFailed halike depth type fun typeName => alike_failWith _ _
  | succ levels ih =>
    exact alike_unlessFailed halike depth type fun typeName =>
      alike_ofType halike (fun t => ih (depth + 1) t) typeName type

theorem alike_instanceOf (type : τ) (bound depth : Int) :
    Alike E (instanceOf h type bound depth) (instanceOf h' type bound depth) := by
  intro s t hst
  obtain ⟨hended, -, hE⟩ :=
    alike_build halike bound (bound + 1 - depth).toNat depth type ([], s) ([], t) ⟨rfl, hst⟩
  exact ⟨hended, hE⟩

/-! ### Receivers and arguments -/

theorem alike_prepare (method : μ) (inputs : List (Option String)) (receiver : Value) :
    Alike E (prepare h method inputs receiver) (prepare h' method inputs receiver) := by
  rw [prepare, prepare]
  refine (alike_arguments halike.toArgumentsAlike method inputs).bind fun arguments => ?_
  cases receiver with
  | none =>
    refine (halike.describe method).bind fun m => ?_
    split
    · exact Alike.pure _
    · refine (halike.declaringType method).bind fun type => ?_
      exact (alike_instanceOf halike type defaultBound 0).bind fun built => Alike.pure (built, arguments)
  | _ => exact Alike.pure _

end

/-! ### Records -/

/-- A session and its record, to which only calls were added that make receivers and arguments. -/
private def Prepared (calls : List (HostCall τ μ)) (s : Session σ) (t : Session (σ × List (HostCall τ μ))) : Prop :=
  ∃ added, t = s.withCalls (calls ++ added) ∧ Preparatory added

private theorem alike_recording (calls : List (HostCall τ μ)) {act : Action σ α}
    {added : Except Raised α → List (HostCall τ μ)} (hadded : ∀ ended, Preparatory (added ended)) :
    Alike (Prepared calls) act (act.recording added) := by
  rintro s _ ⟨before, rfl, hbefore⟩
  refine ⟨rfl, before ++ added (act.run s).1, ?_, hbefore.append (hadded _)⟩
  rw [← List.append_assoc]
  rfl

private theorem alike_recorded (h : Host τ μ σ) (calls : List (HostCall τ μ)) :
    PreparesAlike (Prepared calls) h h.recorded := by
  have hquery {α : Type} (act : Action σ α) :
      Alike (Prepared calls) act (act.recording fun _ => []) :=
    alike_recording calls fun _ => nofun
  have hcall {α : Type} (act : Action σ α) {c : HostCall τ μ} (hc : c.isPreparation) :
      Alike (Prepared calls) act (act.recording fun _ => [c]) :=
    alike_recording calls fun _ _ hmem => (List.mem_singleton.1 hmem) ▸ hc
  exact {
    typeName t := hquery _
    typeKind t := hquery _
    enumMembers t := hquery _
    elementType t := hquery _
    newArray t length := hcall _ rfl
    createDefault t := hcall _ rfl
    convert text t := hcall _ rfl
    text f := hquery _
    parameters m := hquery _
    constructors t := hquery _
    construct m arguments := hcall _ rfl
    describe m := hquery _
    declaringType m := hquery _ }

theorem prepares_prepare (h : Host τ μ σ) (method : μ) (inputs : List (Option String)) (receiver : Value) :
    Prepares Session.withCalls (prepare h.recorded method inputs receiver) (prepare h method inputs receiver) := by
  intro s calls
  obtain ⟨hended, added, hadded, hpreparatory⟩ := alike_prepare (alike_recorded h calls) method inputs receiver s
    (s.withCalls calls) ⟨[], by rw [List.append_nil], nofun⟩
  exact ⟨added, Prod.ext hended.symm hadded, hpreparatory⟩

end CilProbe.Invocation
