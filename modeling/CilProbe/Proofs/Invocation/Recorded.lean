import CilProbe.Invocation.Pipeline
import CilProbe.Proofs.Synthesis.Memo

/-!
# Recorded calls

`Host.recorded` is a host that does what another host does and keeps a list of the calls that were made of it, queries
by reflection apart.  So the calls of a pipeline can be spoken of for every host, whatever its methods do.

An action on the recorded host ends as on the host itself and leaves the same session, and what it adds to the record
goes with how it ended (`Records`).  This is carried along the ways in which actions are put together.  Actions that
only make receivers and arguments add no call of a method (`Prepares`).
-/

namespace CilProbe

/-- A call of a host that is no query, with what came of it where the pipeline goes by it. -/
inductive HostCall (τ μ : Type) where
  | convert (text : String) (type : τ)
  | createDefault (type : τ)
  | newArray (element : τ) (length : Int)
  | construct (constructor : μ) (arguments : List Value)
  | invoke (method : μ) (receiver : Value) (arguments : List Value) (ended : Except Raised Value)
  | isAwaitable (result : Value) (ended : Except Raised Bool)
  | awaitResult (result : Value) (ended : Except Raised (Bool × Value))
  | unwrap (fault : Fault) (ended : Except Raised (Option Fault))
  | report (fault : Fault) (ended : Except Raised FaultReport)

variable {τ μ σ α β : Type}

/-- Whether a call is that of a method. -/
def HostCall.isInvoke : HostCall τ μ → Bool
  | invoke .. => true
  | _ => false

/-- Whether a call makes a receiver or an argument. -/
def HostCall.isPreparation : HostCall τ μ → Bool
  | convert .. | createDefault .. | newArray .. | construct .. => true
  | _ => false

/-- What interrupted a method, when it was called or when its result was waited for. -/
def HostCall.raised? : HostCall τ μ → Option Raised
  | invoke _ _ _ (.error raised) | isAwaitable _ (.error raised) | awaitResult _ (.error raised) => some raised
  | _ => none

/-- The calls of methods among the calls of a host. -/
def invocations (calls : List (HostCall τ μ)) : List (HostCall τ μ) := calls.filter HostCall.isInvoke

theorem invocations_append (before after : List (HostCall τ μ)) :
    invocations (before ++ after) = invocations before ++ invocations after :=
  List.filter_append ..

/-- A session with a record of calls. -/
def Session.withCalls {C : Type} (s : Session σ) (calls : List C) : Session (σ × List C) :=
  { s with host := (s.host, calls) }

/-- A session without its record. -/
def Session.withoutCalls {C : Type} (s : Session (σ × List C)) : Session σ :=
  { s with host := s.host.1 }

@[simp] theorem Session.withoutCalls_withCalls {C : Type} (s : Session σ) (calls : List C) :
    (s.withCalls calls).withoutCalls = s := rfl

namespace Action

variable {C : Type}

/-- The same action, which adds these calls to the record, given how it ended. -/
def recording (added : Except Raised α → List C) (act : Action σ α) : Action (σ × List C) α := fun s =>
  let (ended, t) := act s.withoutCalls
  (ended, t.withCalls (s.host.2 ++ added ended))

end Action

/-- The same host, which also keeps a record of the calls that are no queries. -/
def Host.recorded (h : Host τ μ σ) : Host τ μ (σ × List (HostCall τ μ)) where
  typeName t := (h.typeName t).recording fun _ => []
  typeKind t := (h.typeKind t).recording fun _ => []
  enumMembers t := (h.enumMembers t).recording fun _ => []
  elementType t := (h.elementType t).recording fun _ => []
  newArray t length := (h.newArray t length).recording fun _ => [.newArray t length]
  createDefault t := (h.createDefault t).recording fun _ => [.createDefault t]
  convert text t := (h.convert text t).recording fun _ => [.convert text t]
  constructors t := (h.constructors t).recording fun _ => []
  parameters m := (h.parameters m).recording fun _ => []
  construct m arguments := (h.construct m arguments).recording fun _ => [.construct m arguments]
  declaringType m := (h.declaringType m).recording fun _ => []
  describe m := (h.describe m).recording fun _ => []
  methodKind m := (h.methodKind m).recording fun _ => []
  invoke m receiver arguments :=
    (h.invoke m receiver arguments).recording fun ended => [.invoke m receiver arguments ended]
  isAwaitable v := (h.isAwaitable v).recording fun ended => [.isAwaitable v ended]
  awaitResult v := (h.awaitResult v).recording fun ended => [.awaitResult v ended]
  text f := (h.text f).recording fun _ => []
  unwrap f := (h.unwrap f).recording fun ended => [.unwrap f ended]
  report f := (h.report f).recording fun ended => [.report f ended]
  redirectsConsole := h.redirectsConsole

namespace Invocation

open Synthesis (run_bind_of_ok run_bind_of_error Search)

/-! ### Actions and their records -/

section

variable {C S T : Type} {embed : S → List C → T}

/-- An action with a record does what the action without it does, from every state; and how that ends goes with what is
added to the record.  A state together with a record is a state of the action with a record. -/
def Records (embed : S → List C → T) (Q : Except Raised α → List C → Prop) (recorded : ExceptT Raised (StateM T) α)
    (act : ExceptT Raised (StateM S) α) : Prop :=
  ∀ s calls, ∃ added,
    recorded.run (embed s calls) = ((act.run s).1, embed (act.run s).2 (calls ++ added)) ∧ Q (act.run s).1 added

namespace Records

variable {Q : Except Raised α → List C → Prop} {Q' : Except Raised β → List C → Prop}
  {recorded : ExceptT Raised (StateM T) α} {act : ExceptT Raised (StateM S) α}
  {recordedNext : α → ExceptT Raised (StateM T) β} {next : α → ExceptT Raised (StateM S) β}

theorem mono {R : Except Raised α → List C → Prop} (h : Records embed Q recorded act)
    (hQ : ∀ ended added, Q ended added → R ended added) : Records embed R recorded act := by
  intro s calls
  obtain ⟨added, hrun, hadded⟩ := h s calls
  exact ⟨added, hrun, hQ _ _ hadded⟩

/-- What is known of how the action itself ends may be added. -/
theorem and_ends {P : Except Raised α → Prop} (h : Records embed Q recorded act) (hP : ∀ s, P (act.run s).1) :
    Records embed (fun ended added => P ended ∧ Q ended added) recorded act := by
  intro s calls
  obtain ⟨added, hrun, hadded⟩ := h s calls
  exact ⟨added, hrun, hP s, hadded⟩

theorem pure (a : α) (h : Q (.ok a) []) : Records embed Q (Pure.pure a) (Pure.pure a) := by
  intro s calls
  refine ⟨[], ?_, h⟩
  rw [List.append_nil]
  rfl

theorem throw (raised : Raised) (h : Q (.error raised) []) :
    Records embed Q (throw raised) (MonadExcept.throw raised) := by
  intro s calls
  refine ⟨[], ?_, h⟩
  rw [List.append_nil]
  rfl

theorem bind (h : Records embed Q recorded act)
    (herror : ∀ raised added, Q (.error raised) added → Q' (.error raised) added)
    (hnext : ∀ a before, Q (.ok a) before →
      Records embed (fun ended after => Q' ended (before ++ after)) (recordedNext a) (next a)) :
    Records embed Q' (recorded >>= recordedNext) (act >>= next) := by
  intro s calls
  obtain ⟨before, hrun, hbefore⟩ := h s calls
  rcases hact : act.run s with ⟨_ | a, s'⟩
  · next raised =>
    rw [hact] at hrun hbefore
    rw [run_bind_of_error hrun, run_bind_of_error hact]
    exact ⟨before, rfl, herror raised before hbefore⟩
  · rw [hact] at hrun hbefore
    rw [run_bind_of_ok hrun, run_bind_of_ok hact]
    obtain ⟨after, hrun', hafter⟩ := hnext a before hbefore s' (calls ++ before)
    rw [List.append_assoc] at hrun'
    exact ⟨before ++ after, hrun', hafter⟩

/-- A change of how actions end, and of nothing else, changes the record as little as the session. -/
theorem change {f : Except Raised α → Except Raised β} {recorded' : ExceptT Raised (StateM T) β}
    {act' : ExceptT Raised (StateM S) β} (h : Records embed Q recorded act)
    (hrecorded : ∀ t, recorded'.run t = (f (recorded.run t).1, (recorded.run t).2))
    (hact : ∀ s, act'.run s = (f (act.run s).1, (act.run s).2))
    (hQ : ∀ ended added, Q ended added → Q' (f ended) added) : Records embed Q' recorded' act' := by
  intro s calls
  obtain ⟨added, hrun, hadded⟩ := h s calls
  refine ⟨added, ?_, ?_⟩
  · rw [hrecorded, hrun, hact]
  · rw [hact]
    exact hQ _ _ hadded

end Records

end

/-! ### Caught faults -/

/-- What an attempt makes of how an action ended. -/
def caught : Except Raised α → Except Raised (Except Fault α)
  | .ok a => .ok (.ok a)
  | .error (.fault f) => .ok (.error f)
  | .error (.exit e) => .error (.exit e)

theorem run_attempt (act : Action σ α) (s : Session σ) :
    (Action.attempt act).run s = (caught (act.run s).1, (act.run s).2) := by
  change Action.attempt act s = (caught (act s).1, (act s).2)
  rw [Action.attempt]
  rcases act s with ⟨_ | _, _⟩
  · next raised => cases raised <;> rfl
  · rfl

theorem run_searchAttempt (search : Search σ α) (state : Synthesis.Failures × Session σ) :
    (Search.attempt search).run state = (caught (search.run state).1, (search.run state).2) := by
  change Search.attempt search state = (caught (search state).1, (search state).2)
  rw [Search.attempt]
  rcases search state with ⟨_ | _, _⟩
  · next raised => cases raised <;> rfl
  · rfl

/-! ### Steps of the recorded host -/

theorem records_recording {C : Type} (act : Action σ α) (added : Except Raised α → List C) :
    Records Session.withCalls (fun ended calls => calls = added ended) (act.recording added) act :=
  fun _ _ => ⟨_, rfl, rfl⟩

theorem records_isCancelled {C : Type} :
    Records Session.withCalls (fun ended (calls : List C) => (∃ cancelled, ended = .ok cancelled) ∧ calls = [])
      Action.isCancelled (Action.isCancelled (σ := σ)) := by
  intro s calls
  refine ⟨[], ?_, ⟨s.cancelled, rfl⟩, rfl⟩
  rw [List.append_nil]
  rfl

/-! ### Preparing -/

/-- Receivers and arguments are made, and nothing else is done. -/
def Preparatory (calls : List (HostCall τ μ)) : Prop := ∀ c ∈ calls, c.isPreparation

theorem Preparatory.append {before after : List (HostCall τ μ)} (hbefore : Preparatory before)
    (hafter : Preparatory after) : Preparatory (before ++ after) := by
  intro c hc
  rcases List.mem_append.1 hc with hc | hc
  · exact hbefore c hc
  · exact hafter c hc

theorem Preparatory.invocations_eq_nil {calls : List (HostCall τ μ)} (h : Preparatory calls) :
    invocations calls = [] := by
  refine List.filter_eq_nil_iff.2 fun c hc => ?_
  have := h c hc
  cases c <;> simp_all [HostCall.isPreparation, HostCall.isInvoke]

theorem Preparatory.raised?_eq_none {calls : List (HostCall τ μ)} (h : Preparatory calls) {c : HostCall τ μ}
    (hc : c ∈ calls) : c.raised? = none := by
  have := h c hc
  cases c <;> simp_all [HostCall.isPreparation, HostCall.raised?]

/-- An action that only makes receivers and arguments. -/
abbrev Prepares {S T : Type} (embed : S → List (HostCall τ μ) → T) (recorded : ExceptT Raised (StateM T) α)
    (act : ExceptT Raised (StateM S) α) : Prop :=
  Records embed (fun _ added => Preparatory added) recorded act

theorem Prepares.attempt {recorded : Action (σ × List (HostCall τ μ)) α} {act : Action σ α}
    (h : Prepares Session.withCalls recorded act) :
    Prepares Session.withCalls (Action.attempt recorded) (Action.attempt act) :=
  h.change (run_attempt recorded) (run_attempt act) fun _ _ hadded => hadded

end Invocation

end CilProbe
