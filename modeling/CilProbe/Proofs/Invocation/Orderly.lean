import CilProbe.Proofs.Failure
import CilProbe.Proofs.Invocation.Ending

/-!
# Hosts on which invocations return

A host is responsive if its queries are answered, always in the same way and without touching a cancellation, and if
the code that it runs raises faults only (`Responsive`).  It is orderly if, besides, the texts of faults can be taken
and methods close no stream (`Orderly`).  On an orderly host an invocation with arguments that are made up always returns an
outcome, whatever else constructors and methods do, unless a parameter stands before the first input: `returns_run`.

* What an action can be interrupted by, `FailsOnly`, is carried along the ways in which actions are put together.
* No argument is missing, and the search for a receiver ends with an instance or an instantiation error:
  `failsOnly_arguments`, `failsOnly_instanceOf`.
-/

namespace CilProbe.Invocation

open Synthesis

variable {τ μ σ α β S : Type}

/-! ### What interrupts actions -/

def IsFault (raised : Raised) : Prop := ∃ f, raised = .fault f

def IsInstantiation (raised : Raised) : Prop := ∃ e, raised = .fault (.instantiation e)

/-- Whatever interrupts the action has this property. -/
def FailsOnly (P : Raised → Prop) (act : ExceptT Raised (StateM S) α) : Prop := ∀ s, OnlyFails P (act.run s).1

/-- A query gets this answer in every session, and a cancellation stays as it is. -/
def Steady (act : Action σ α) (a : α) : Prop := ∀ s, ∃ s', act.run s = (.ok a, s') ∧ s'.cancelled = s.cancelled

def Answered (act : Action σ α) : Prop := ∃ a, Steady act a

section

variable {P : Raised → Prop}

namespace FailsOnly

theorem pure (a : α) : FailsOnly P (Pure.pure a : ExceptT Raised (StateM S) α) := fun _ => OnlyFails.ok a

theorem throw {raised : Raised} (h : P raised) : FailsOnly P (throw raised : ExceptT Raised (StateM S) α) :=
  fun _ => OnlyFails.error h

theorem bind {act : ExceptT Raised (StateM S) α} {next : α → ExceptT Raised (StateM S) β} (h : FailsOnly P act)
    (hnext : ∀ a, FailsOnly P (next a)) : FailsOnly P (act >>= next) := by
  intro s
  have hs := h s
  rcases hact : act.run s with ⟨raised | a, s'⟩
  · rw [hact] at hs
    rw [run_bind_of_error hact]
    exact OnlyFails.error (hs raised rfl)
  · rw [run_bind_of_ok hact]
    exact hnext a s'

theorem lift {act : Action σ α} (h : FailsOnly P act) : FailsOnly P (Search.lift act) := fun state => h state.2

/-- Faults are caught, and all else stays. -/
theorem onlyFails_caught {ended : Except Raised α} (h : OnlyFails (fun raised => IsFault raised ∨ P raised) ended) :
    OnlyFails P (caught ended) := by
  rcases ended with (f | e) | a
  · exact OnlyFails.ok _
  · rcases h _ rfl with ⟨f, hf⟩ | he
    · cases hf
    · exact OnlyFails.error he
  · exact OnlyFails.ok _

theorem attempt {act : Action σ α} (h : FailsOnly IsFault act) : FailsOnly P (Action.attempt act) := by
  intro s
  rw [run_attempt]
  exact onlyFails_caught ((h s).mono fun _ => .inl)

theorem searchAttempt {search : Search σ α} (h : FailsOnly IsFault search) : FailsOnly P (Search.attempt search) := by
  intro state
  rw [run_searchAttempt]
  exact onlyFails_caught ((h state).mono fun _ => .inl)

theorem noting {search : Search σ α} (h : FailsOnly P search) (typeName : String) (depth : Int) :
    FailsOnly P (Search.noting typeName depth search) := by
  intro state
  rw [run_noting]
  exact h state

theorem exclusively {act : Action σ α} (h : FailsOnly P act) : FailsOnly P (Action.exclusively act) :=
  fun s => h { s with locked := true }

theorem captured {console : Bool} {act : Action σ α} (h : FailsOnly P act) (hopen : act.KeepsOpen) :
    FailsOnly P (Action.captured console act) := by
  intro s
  rcases Action.captured_cases console act s with ⟨out, err, hended⟩ | ⟨-, -, hcloses⟩
  · rw [hended]
    exact (h (s.redirected console)).map _
  · exact absurd hopen hcloses

end FailsOnly

theorem IsInstantiation.isFault {raised : Raised} (h : IsInstantiation raised) : IsFault raised := by
  obtain ⟨e, rfl⟩ := h
  exact ⟨_, rfl⟩

theorem FailsOnly.of_returns {act : Action σ α} (h : Returns act) : FailsOnly P act := by
  intro s
  obtain ⟨a, ha⟩ := h s
  rw [ha]
  exact OnlyFails.ok a

theorem FailsOnly.returns {act : Action σ α} (h : FailsOnly (fun _ => False) act) : Returns act := by
  intro s
  have hs := h s
  rcases hact : (act.run s).1 with raised | a
  · rw [hact] at hs
    exact (hs raised rfl).elim
  · exact ⟨a, rfl⟩

theorem Answered.failsOnly {act : Action σ α} (h : Answered act) : FailsOnly P act := by
  obtain ⟨a, ha⟩ := h
  refine FailsOnly.of_returns fun s => ?_
  obtain ⟨s', hrun, -⟩ := ha s
  exact ⟨a, by rw [hrun]⟩

theorem Steady.pure (a : α) : Steady (Pure.pure a : Action σ α) a := fun s => ⟨s, rfl, rfl⟩

theorem Steady.bind {act : Action σ α} {next : α → Action σ β} {a : α} {b : β} (ha : Steady act a)
    (hnext : Steady (next a) b) : Steady (act >>= next) b := by
  intro s
  obtain ⟨s', hrun, hs'⟩ := ha s
  obtain ⟨s'', hrun', hs''⟩ := hnext s'
  exact ⟨s'', by rw [run_bind_of_ok hrun, hrun'], hs''.trans hs'⟩

/-- After a query it is enough to go on with its answer. -/
theorem Steady.failsOnly_bind {act : Action σ α} {next : α → Action σ β} {a : α} (h : Steady act a)
    (hnext : FailsOnly P (next a)) : FailsOnly P (act >>= next) := by
  intro s
  obtain ⟨s', hrun, -⟩ := h s
  rw [run_bind_of_ok hrun]
  exact hnext s'

end

/-! ### Orderly hosts -/

/-- Queries are answered, and what a host makes, calls or waits for raises faults only.  Arrays are made without fail,
and so are the descriptions of faults.  Only arrays need to have elements. -/
structure Responsive (h : Host τ μ σ) : Prop where
  typeName t : Answered (h.typeName t)
  typeKind t : Answered (h.typeKind t)
  enumMembers t : Answered (h.enumMembers t)
  elementType t : Steady (h.typeKind t) .array → Answered (h.elementType t)
  constructors t : Answered (h.constructors t)
  parameters m : Answered (h.parameters m)
  declaringType m : Answered (h.declaringType m)
  describe m : Answered (h.describe m)
  methodKind m : Answered (h.methodKind m)
  newArray t length : Returns (h.newArray t length)
  unwrap f : Returns (h.unwrap f)
  report f : Returns (h.report f)
  createDefault t : FailsOnly IsFault (h.createDefault t)
  construct c arguments : FailsOnly IsFault (h.construct c arguments)
  invoke m receiver arguments : FailsOnly IsFault (h.invoke m receiver arguments)
  isAwaitable v : FailsOnly IsFault (h.isAwaitable v)
  awaitResult v : FailsOnly IsFault (h.awaitResult v)

/-- Moreover faults have texts, and methods leave the streams of the process open. -/
structure Orderly (h : Host τ μ σ) : Prop extends Responsive h where
  text : Legible h
  closes : ClosesNothing h

/-- No parameter of the method stands before the first input. -/
def Placed (h : Host τ μ σ) (method : μ) : Prop :=
  ∀ ps, Steady (h.parameters method) ps → ∀ p ∈ ps, 0 ≤ p.position

variable {h : Host τ μ σ} {P : Raised → Prop}

/-! ### Arguments -/

theorem failsOnly_runtimeDefault (hh : Orderly h) (type : τ) : FailsOnly P (runtimeDefault h type) := by
  refine (hh.createDefault type).attempt.bind fun ended => ?_
  cases ended with
  | ok v => exact FailsOnly.pure v
  | error f => exact (FailsOnly.of_returns (hh.text f)).bind fun _ => FailsOnly.pure _

theorem failsOnly_defaultOf (hh : Orderly h) (type : τ) : FailsOnly P (defaultOf h type) := by
  refine (hh.typeName type).failsOnly.bind fun name => ?_
  cases Conversion.default? name with
  | some v => exact FailsOnly.pure v
  | none =>
    obtain ⟨kind, hkind⟩ := hh.typeKind type
    refine hkind.failsOnly_bind ?_
    cases kind with
    | enum =>
      refine (hh.enumMembers type).failsOnly.bind fun members => ?_
      cases members with
      | nil => exact failsOnly_runtimeDefault hh type
      | cons member _ => exact FailsOnly.pure member.2
    | array =>
      exact (hh.elementType type hkind).failsOnly.bind fun element => FailsOnly.of_returns (hh.newArray element 0)
    | value => exact failsOnly_runtimeDefault hh type
    | string | plainClass | interface | abstractClass => exact FailsOnly.pure _

theorem inputAt_nil {position : Int} (h : 0 ≤ position) : inputAt [] position = .ok none := by
  rw [inputAt, Position.at?_nil]
  exact if_neg (Int.not_lt.2 h)

/-- Without inputs there is nothing to convert. -/
theorem failsOnly_resolveAll (hh : Orderly h) {ps : List (Parameter τ)} (hps : ∀ p ∈ ps, 0 ≤ p.position) :
    FailsOnly P (resolveAll h [] ps) := by
  induction ps with
  | nil => exact FailsOnly.pure []
  | cons p ps ih =>
    have hrest := ih fun p hp => hps p (.tail _ hp)
    rw [resolveAll, inputAt_nil (hps p (.head _))]
    refine FailsOnly.bind ?_ fun v => hrest.bind fun vs => FailsOnly.pure (v :: vs)
    rw [resolve]
    split
    · exact FailsOnly.pure _
    · exact failsOnly_defaultOf hh p.type

theorem failsOnly_arguments (hh : Orderly h) {method : μ} (hplaced : Placed h method) :
    FailsOnly P (arguments h method []) := by
  obtain ⟨ps, hps⟩ := hh.parameters method
  refine hps.failsOnly_bind ?_
  split
  · next hlt => exact absurd hlt (Nat.not_lt_zero _)
  · exact failsOnly_resolveAll hh (hplaced ps hps)

/-! ### Instances -/

theorem failsOnly_failWith (typeName : String) (reason : InstantiationReason) :
    FailsOnly IsInstantiation (Search.failWith typeName reason : Search σ α) :=
  FailsOnly.throw ⟨_, rfl⟩

section

variable {build : τ → Search σ Value}

theorem failsOnly_argumentsFor (hh : Orderly h) (hbuild : ∀ t, FailsOnly IsInstantiation (build t))
    (ps : List (Parameter τ)) : FailsOnly IsInstantiation (Search.argumentsFor h build ps) := by
  induction ps with
  | nil => exact FailsOnly.pure []
  | cons p ps ih =>
    have hrest (v : Value) := ih.bind fun vs => FailsOnly.pure (v :: vs)
    refine (hh.typeKind p.type).failsOnly.lift.bind fun kind => ?_
    split
    · exact (failsOnly_defaultOf hh p.type).lift.bind hrest
    · exact (hbuild p.type).bind hrest

theorem failsOnly_firstOf (hh : Orderly h) (hbuild : ∀ t, FailsOnly IsInstantiation (build t)) (typeName : String)
    (last : Option Fault) (constructors : List (μ × List (Parameter τ))) :
    FailsOnly IsInstantiation (Search.firstOf h build typeName last constructors) := by
  induction constructors generalizing last with
  | nil =>
    cases last with
    | none => exact failsOnly_failWith _ _
    | some last => exact (FailsOnly.of_returns (hh.text last)).lift.bind fun _ => failsOnly_failWith _ _
  | cons c constructors ih =>
    have hconstruct : FailsOnly IsFault
        (do Search.lift (h.construct c.1 (← Search.argumentsFor h build c.2))) :=
      FailsOnly.bind (fun state => (failsOnly_argumentsFor hh hbuild c.2 state).mono fun _ hraised => hraised.isFault)
        fun arguments => (hh.construct c.1 arguments).lift
    -- The attempt keeps the fault of a constructor for the message, so only the end of the list can fail.
    cases last
    all_goals
      refine hconstruct.searchAttempt.bind fun ended => ?_
      cases ended with
      | ok v => exact FailsOnly.pure v
      | error f => exact (FailsOnly.of_returns (hh.text f)).lift.bind fun _ => ih (some f)

theorem failsOnly_withParameters (hh : Orderly h) (constructors : List μ) :
    FailsOnly P (Search.withParameters h constructors) := by
  induction constructors with
  | nil => exact FailsOnly.pure []
  | cons c constructors ih =>
    exact (hh.parameters c).failsOnly.lift.bind fun parameters => ih.bind fun _ => FailsOnly.pure _

theorem failsOnly_ofConstructors (hh : Orderly h) (hbuild : ∀ t, FailsOnly IsInstantiation (build t))
    (typeName : String) (constructors : List (μ × List (Parameter τ))) :
    FailsOnly IsInstantiation (Search.ofConstructors h build typeName constructors) := by
  rw [Search.ofConstructors]
  cases constructors.find? fun c => c.2.isEmpty with
  | some c =>
    refine (hh.construct c.1 []).lift.searchAttempt.bind fun ended => ?_
    cases ended with
    | ok v => exact FailsOnly.pure v
    | error f => exact (FailsOnly.of_returns (hh.text f)).lift.bind fun _ => failsOnly_failWith _ _
  | none => exact failsOnly_firstOf hh hbuild typeName none _

theorem failsOnly_ofType (hh : Orderly h) (hbuild : ∀ t, FailsOnly IsInstantiation (build t)) (typeName : String)
    (type : τ) : FailsOnly IsInstantiation (Search.ofType h build typeName type) := by
  refine (hh.typeKind type).failsOnly.lift.bind fun kind => ?_
  cases kind with
  | string => exact FailsOnly.pure _
  | value | enum | array => exact (failsOnly_defaultOf hh type).lift
  | abstractClass | interface => exact failsOnly_failWith _ _
  | plainClass =>
    refine (hh.constructors type).failsOnly.lift.bind fun constructors => ?_
    exact (failsOnly_withParameters hh constructors).bind fun cs => failsOnly_ofConstructors hh hbuild typeName cs

theorem failsOnly_unlessFailed (hh : Orderly h) (depth : Int) (type : τ) {search : String → Search σ Value}
    (hsearch : ∀ name, FailsOnly IsInstantiation (search name)) :
    FailsOnly IsInstantiation (Search.unlessFailed h depth type search) := by
  refine (hh.typeName type).failsOnly.lift.bind fun typeName => ?_
  have hlevel : FailsOnly IsInstantiation (Search.failureLevel? typeName : Search σ _) := fun _ => OnlyFails.ok _
  refine hlevel.bind fun level? => ?_
  have hnoting := (hsearch typeName).noting typeName depth
  cases level? with
  | none => exact hnoting
  | some level =>
    dsimp only
    split
    · exact failsOnly_failWith _ _
    · exact hnoting

theorem failsOnly_build (hh : Orderly h) (bound : Int) (levels : Nat) (depth : Int) (type : τ) :
    FailsOnly IsInstantiation (Search.build h bound levels depth type) := by
  induction levels generalizing depth type with
  | zero => exact failsOnly_unlessFailed hh depth type fun typeName => failsOnly_failWith _ _
  | succ levels ih =>
    exact failsOnly_unlessFailed hh depth type fun typeName =>
      failsOnly_ofType hh (fun t => ih (depth + 1) t) typeName type

end

theorem failsOnly_instanceOf (hh : Orderly h) (type : τ) (bound depth : Int) :
    FailsOnly IsInstantiation (instanceOf h type bound depth) :=
  fun s => failsOnly_build hh bound (bound + 1 - depth).toNat depth type ([], s)

/-! ### Invocations -/

theorem failsOnly_prepare (hh : Orderly h) {method : μ} (hplaced : Placed h method) :
    FailsOnly IsInstantiation (prepare h method [] .none) := by
  refine (failsOnly_arguments hh hplaced).bind fun arguments => ?_
  refine (hh.describe method).failsOnly.bind fun m => ?_
  split
  · exact FailsOnly.pure _
  · refine (hh.declaringType method).failsOnly.bind fun type => ?_
    exact (failsOnly_instanceOf hh type defaultBound 0).bind fun built => FailsOnly.pure (built, arguments)

theorem failsOnly_isCancelled : FailsOnly P (Action.isCancelled (σ := σ)) := fun _ => OnlyFails.ok _

theorem failsOnly_validateDescribed (hh : Orderly h) (method : μ) (m : Method) :
    FailsOnly P (validateDescribed h method m) := by
  rw [validateDescribed]
  split
  · exact FailsOnly.pure _
  · split
    · exact FailsOnly.pure _
    · exact (hh.methodKind method).failsOnly.bind fun kind => FailsOnly.pure _

theorem composes_failsOnly : Composes fun _ (act : Action σ _) => FailsOnly P act where
  pure := FailsOnly.pure
  bind := FailsOnly.bind
  attempt h s := by
    rw [run_attempt]
    exact FailsOnly.onlyFails_caught ((h s).mono fun _ => .inr)

theorem failsOnly_guarded (hh : Orderly h) (method : μ) (m : Method) (receiver : Value) (arguments : List Value) :
    FailsOnly P (guarded h method m receiver arguments) := by
  have hcalls : AtCalls (fun _ act => FailsOnly IsFault act) h :=
    ⟨hh.invoke, hh.isAwaitable, hh.awaitResult, fun f => .of_returns (hh.unwrap f), fun f => .of_returns (hh.report f)⟩
  -- Nothing is left of the faults of the call, and what is done about them does not fail.
  refine (composes_failsOnly.call hcalls method m receiver arguments).attempt.bind fun ended => ?_
  cases ended with
  | ok result => exact FailsOnly.pure _
  | error f =>
    refine (composes_failsOnly.unwrapped (fun f => .of_returns (hh.unwrap f)) maxWrappers f).bind fun original => ?_
    exact (FailsOnly.of_returns (hh.report original)).bind fun report => FailsOnly.pure _

theorem failsOnly_invoke (hh : Orderly h) (method : μ) (receiver : Value) (arguments : List Value)
    (cancellable : Bool) : FailsOnly P (invoke h method receiver arguments cancellable) := by
  refine (hh.describe method).failsOnly.bind fun m => ?_
  refine (failsOnly_validateDescribed hh method m).bind fun rejection => ?_
  cases rejection with
  | some reason => exact FailsOnly.pure _
  | none =>
    refine FailsOnly.exclusively (failsOnly_isCancelled.bind fun cancelled => ?_)
    split
    · exact FailsOnly.pure _
    · have hopen := composes_keepsOpen.guarded hh.closes method m receiver arguments
      refine ((failsOnly_guarded hh method m receiver arguments).captured hopen).bind fun ended => ?_
      cases ended.result <;> exact FailsOnly.pure _

/-- An invocation returns an outcome, whatever constructors and methods do. -/
theorem returns_run (hh : Orderly h) {method : μ} (hplaced : Placed h method) (cancellable : Bool) :
    Returns (run h method [] .none cancellable) := by
  refine FailsOnly.returns (failsOnly_isCancelled.bind fun cancelled => ?_)
  split
  · exact FailsOnly.pure _
  refine ((hh.describe method).failsOnly.bind (failsOnly_validateDescribed hh method)).bind fun rejection => ?_
  cases rejection with
  | some reason => exact FailsOnly.pure _
  | none =>
    intro s
    -- The attempt hands over instantiation errors only, and these become outcomes.
    have hprepare := failsOnly_prepare hh hplaced s
    rcases hrun : (prepare h method [] .none).run s with ⟨raised | prepared, s'⟩
    · rw [hrun] at hprepare
      obtain ⟨e, rfl⟩ := hprepare raised rfl
      rw [run_bind_of_ok (Action.run_attempt_of_fault hrun)]
      exact OnlyFails.ok _
    · rw [run_bind_of_ok (Action.run_attempt_of_ok hrun)]
      exact failsOnly_invoke hh method prepared.1 prepared.2 cancellable s'

end CilProbe.Invocation
