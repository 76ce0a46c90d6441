import CilProbe.Host.Reflection
import CilProbe.Host.Scripted
import CilProbe.Proofs.Invocation.OpenStreams
import CilProbe.Proofs.Invocation.Preparation

/-!
# How invocations end

An invocation that returns an outcome ends in one of five ways, and each goes with certain calls of the host
(`Ending.Of`).  In particular a method was called, and called once, exactly if the outcome says so.  Whatever the method
throws, the outcome tells of it and of nothing else, also if it looks like one of the failures of the pipeline.

* The calls that make up the call of a method, and what becomes of its faults: `Called`, `Unwraps`, `Guarded`.
* Every outcome belongs to exactly one ending, and what a method throws leads to the last one, unless the method closes
  a stream of the process: `run_ending`.  A method that does so and then throws has no outcome: `run_escaped`.

Of the queries it matters only that the method is described in the same way every time.
-/

namespace CilProbe.Invocation

open Synthesis (Always Returns)

variable {τ μ σ α β : Type}

theorem Records.of_returns {C : Type} {Q : Except Raised α → List C → Prop} {recorded : Action (σ × List C) α}
    {act : Action σ α} (h : Records Session.withCalls Q recorded act) (hact : Returns act) :
    Records Session.withCalls (fun ended added => (∃ a, ended = .ok a) ∧ Q ended added) recorded act :=
  h.and_ends (P := fun ended => ∃ a, ended = .ok a) hact

/-! ### The call of a method -/

/-- The calls that make up the call of a method, and how it ends.  Whether the result of a method counts that is not
waited for is known beforehand. -/
inductive Called (method : μ) (receiver : Value) (arguments : List Value) (counts : Bool) :
    Except Raised (Bool × Value) → List (HostCall τ μ) → Prop
  | thrown (raised : Raised) :
    Called method receiver arguments counts (.error raised) [.invoke method receiver arguments (.error raised)]
  | unclear (v : Value) (raised : Raised) :
    Called method receiver arguments counts (.error raised)
      [.invoke method receiver arguments (.ok v), .isAwaitable v (.error raised)]
  | plain (v : Value) :
    Called method receiver arguments counts (.ok (counts, v))
      [.invoke method receiver arguments (.ok v), .isAwaitable v (.ok false)]
  | awaited (v : Value) (ended : Except Raised (Bool × Value)) :
    Called method receiver arguments counts ended
      [.invoke method receiver arguments (.ok v), .isAwaitable v (.ok true), .awaitResult v ended]

/-- What is reached from a fault by taking off wrappers, at most as many as the number says, and the calls for it. -/
inductive Unwraps : Nat → Fault → Fault → List (HostCall τ μ) → Prop
  | limit (f : Fault) : Unwraps 0 f f []
  | bare (n : Nat) (f : Fault) : Unwraps (n + 1) f f [.unwrap f (.ok none)]
  | wrapped {n : Nat} {f inner original : Fault} {calls : List (HostCall τ μ)} (h : Unwraps n inner original calls) :
    Unwraps (n + 1) f original (.unwrap f (.ok (some inner)) :: calls)

/-- The same for the call of a method whose faults are reported. -/
inductive Guarded (method : μ) (receiver : Value) (arguments : List Value) (counts : Bool) :
    Except Raised (Except FaultReport (Bool × Value)) → List (HostCall τ μ) → Prop
  | returned {result : Bool × Value} {calls : List (HostCall τ μ)}
    (h : Called method receiver arguments counts (.ok result) calls) :
    Guarded method receiver arguments counts (.ok (.ok result)) calls
  | reported {f original : Fault} {calls unwraps : List (HostCall τ μ)} (report : FaultReport)
    (h : Called method receiver arguments counts (.error (.fault f)) calls)
    (hunwraps : Unwraps maxWrappers f original unwraps) :
    Guarded method receiver arguments counts (.ok (.error report))
      (calls ++ unwraps ++ [.report original (.ok report)])
  | left {e : Exit} {calls : List (HostCall τ μ)}
    (h : Called method receiver arguments counts (.error (.exit e)) calls) :
    Guarded method receiver arguments counts (.error (.exit e)) calls

variable {method : μ} {receiver : Value} {arguments : List Value} {counts : Bool}

theorem Called.length_invocations {ended : Except Raised (Bool × Value)} {calls : List (HostCall τ μ)}
    (h : Called method receiver arguments counts ended calls) : (invocations calls).length = 1 := by
  cases h <;> rfl

/-- Only what interrupts a method ends its call without a value. -/
theorem Called.eq_error_of_raised? {ended : Except Raised (Bool × Value)} {calls : List (HostCall τ μ)}
    (h : Called method receiver arguments counts ended calls) {c : HostCall τ μ} (hc : c ∈ calls) {raised : Raised}
    (hraised : c.raised? = some raised) : ended = .error raised := by
  cases h <;> simp only [List.mem_cons, List.not_mem_nil, or_false] at hc
  case thrown => subst hc; exact congrArg Except.error (Option.some.inj hraised)
  case unclear =>
    rcases hc with rfl | rfl
    · cases hraised
    · exact congrArg Except.error (Option.some.inj hraised)
  case plain => rcases hc with rfl | rfl <;> cases hraised
  case awaited v =>
    rcases hc with rfl | rfl | rfl
    · cases hraised
    · cases hraised
    · cases ended with
      | error => exact congrArg Except.error (Option.some.inj hraised)
      | ok => cases hraised

theorem Unwraps.isUnwrap {n : Nat} {f original : Fault} {calls : List (HostCall τ μ)} (h : Unwraps n f original calls) :
    ∀ c ∈ calls, ∃ f inner?, c = .unwrap f (.ok inner?) := by
  induction h with
  | limit => nofun
  | bare n f => exact fun c hc => ⟨_, _, List.mem_singleton.1 hc⟩
  | wrapped _ ih =>
    intro c hc
    rcases List.mem_cons.1 hc with rfl | hc
    · exact ⟨_, _, rfl⟩
    · exact ih c hc

/-- Describing what was thrown calls no method. -/
theorem Unwraps.invocations_eq_nil {n : Nat} {f original : Fault} {calls : List (HostCall τ μ)}
    (h : Unwraps n f original calls) : invocations calls = [] := by
  refine List.filter_eq_nil_iff.2 fun c hc => ?_
  obtain ⟨_, _, rfl⟩ := h.isUnwrap c hc
  exact Bool.false_ne_true

section

variable (h : Host τ μ σ)

theorem records_call (method : μ) (m : Method) (receiver : Value) (arguments : List Value) :
    Records Session.withCalls (Called method receiver arguments (m.returnType != TypeName.void))
      (call h.recorded method m receiver arguments) (call h method m receiver arguments) := by
  refine (records_recording (h.invoke method receiver arguments) fun ended =>
    [HostCall.invoke method receiver arguments ended]).bind ?_ ?_
  · rintro raised _ rfl
    exact .thrown raised
  · rintro v _ rfl
    refine (records_recording (h.isAwaitable v) fun ended => [HostCall.isAwaitable v ended]).bind ?_ ?_
    · rintro raised _ rfl
      exact .unclear v raised
    · rintro awaitable _ rfl
      cases awaitable with
      | false => exact Records.pure _ (.plain v)
      | true =>
        refine (records_recording (h.awaitResult v) fun ended => [HostCall.awaitResult v ended]).mono ?_
        rintro ended _ rfl
        exact .awaited v ended

theorem records_unwrapped (hunwrap : ∀ f, Returns (h.unwrap f)) (n : Nat) (f : Fault) :
    Records Session.withCalls (fun ended calls => ∃ original, ended = .ok original ∧ Unwraps n f original calls)
      (unwrapped h.recorded n f) (unwrapped h n f) := by
  induction n generalizing f with
  | zero => exact Records.pure f ⟨f, rfl, .limit f⟩
  | succ n ih =>
    refine ((records_recording (h.unwrap f) fun ended => [HostCall.unwrap f ended]).of_returns (hunwrap f)).bind ?_ ?_
    · rintro raised _ ⟨⟨_, hok⟩, -⟩
      cases hok
    · rintro inner? _ ⟨-, rfl⟩
      cases inner? with
      | none => exact Records.pure f ⟨f, rfl, .bare n f⟩
      | some inner =>
        refine (ih inner).mono ?_
        rintro ended calls ⟨original, rfl, hunwraps⟩
        exact ⟨original, rfl, hunwraps.wrapped⟩

theorem records_guarded (hunwrap : ∀ f, Returns (h.unwrap f)) (hreport : ∀ f, Returns (h.report f)) (method : μ)
    (m : Method) (receiver : Value) (arguments : List Value) :
    Records Session.withCalls (Guarded method receiver arguments (m.returnType != TypeName.void))
      (guarded h.recorded method m receiver arguments) (guarded h method m receiver arguments) := by
  have hattempt : Records Session.withCalls
      (fun ended calls => ∃ ended', ended = caught ended' ∧
        Called method receiver arguments (m.returnType != TypeName.void) ended' calls)
      (Action.attempt (call h.recorded method m receiver arguments))
      (Action.attempt (call h method m receiver arguments)) :=
    (records_call h method m receiver arguments).change (run_attempt _) (run_attempt _)
      fun ended _ hcalled => ⟨ended, rfl, hcalled⟩
  refine hattempt.bind ?_ ?_
  · rintro raised calls ⟨(f | e) | result, hended, hcalled⟩
    · cases hended
    · cases hended
      exact .left hcalled
    · cases hended
  · rintro ended calls ⟨(f | e) | result, hended, hcalled⟩
    · cases hended
      refine (records_unwrapped h hunwrap maxWrappers f).bind ?_ ?_
      · rintro raised _ ⟨_, hok, -⟩
        cases hok
      · rintro original unwraps ⟨_, hok, hunwraps⟩
        cases hok
        refine ((records_recording (h.report original) fun ended => [HostCall.report original ended]).of_returns
          (hreport original)).bind ?_ ?_
        · rintro raised _ ⟨⟨_, hok⟩, -⟩
          cases hok
        · rintro report _ ⟨-, rfl⟩
          refine Records.pure _ ?_
          rw [List.append_nil, ← List.append_assoc]
          exact .reported report hcalled hunwraps
    · cases hended
    · cases hended
      refine Records.pure _ ?_
      rw [List.append_nil]
      exact .returned hcalled

end

/-! ### Captures and the lock -/

section

variable {C : Type} {Q : Except Raised α → List C → Prop} {recorded : Action (σ × List C) α} {act : Action σ α}

theorem Records.exclusively (h : Records Session.withCalls Q recorded act) :
    Records Session.withCalls Q (Action.exclusively recorded) (Action.exclusively act) := by
  intro s calls
  obtain ⟨added, hrun, hadded⟩ := h { s with locked := true } calls
  refine ⟨added, ?_, hadded⟩
  change Action.exclusively recorded (s.withCalls calls) = _
  rw [Action.exclusively, show recorded { s.withCalls calls with locked := true } = _ from hrun]
  rfl

/-- How the action itself ends is known if its capture ends with texts, and also if a closed stream is all that the
capture ends with. -/
theorem Records.captured {Q' : Except Raised (Action.Captured α) → List C → Prop} (console : Bool)
    (h : Records Session.withCalls Q recorded act)
    (hread : ∀ ended added out err, Q ended added → Q' (ended.map fun result => ⟨result, out, err⟩) added)
    (hclosed : ∀ a added, ¬ act.KeepsOpen → Q (.ok a) added → Q' (.error (.fault .closedFile)) added) :
    Records Session.withCalls Q' (Action.captured console recorded) (Action.captured console act) := by
  intro s calls
  obtain ⟨added, hrun, hadded⟩ := h (s.redirected console) calls
  refine ⟨added, ?_, ?_⟩
  · change Action.captured console recorded (s.withCalls calls) = _
    rw [Action.captured, show recorded ((s.withCalls calls).redirected console) = _ from hrun]
    rfl
  · rcases Action.captured_cases console act s with ⟨out, err, hended⟩ | ⟨⟨a, hok⟩, hended, hcloses⟩
    · rw [hended]
      exact hread _ _ _ _ hadded
    · rw [hended]
      rw [hok] at hadded
      exact hclosed a added hcloses hadded

end

/-! ### Endings -/

inductive Ending where
  | completed
  | blocked
  | cancelled
  /-- The receiver or an argument could not be made. -/
  | unprepared
  | thrown
  deriving DecidableEq

namespace Ending

def state : Ending → InvocationState
  | completed => .completed
  | blocked => .blocked
  | cancelled => .cancelled
  | unprepared | thrown => .faulted

/-- The kinds of the failures. -/
def kinds : Ending → List (Option String)
  | completed => [none]
  | blocked => [some "ValidationError"]
  | cancelled => [some "Cancelled"]
  | unprepared => [some "ConversionError", some "InstantiationError"]
  | thrown => [some "InvocationFault"]

/-- How often the method is called. -/
def invoked : Ending → Nat
  | completed | thrown => 1
  | blocked | cancelled | unprepared => 0

/-- The calls of the host for an outcome.  What is thrown is known by the report on the exception that is reached by
taking off wrappers. -/
def Calls (method : μ) (counts : Bool) (o : Outcome) (calls : List (HostCall τ μ)) : Ending → Prop
  | completed => ∃ preparing receiver arguments calling, calls = preparing ++ calling ∧ Preparatory preparing ∧
      Called method receiver arguments counts (.ok (o.hasValue, o.value)) calling
  | blocked => calls = []
  | cancelled | unprepared => Preparatory calls
  | thrown => ∃ preparing receiver arguments f calling original unwraps report failure,
      calls = preparing ++ (calling ++ unwraps ++ [.report original (.ok report)]) ∧ Preparatory preparing ∧
      Called method receiver arguments counts (.error (.fault f)) calling ∧
      Unwraps maxWrappers f original unwraps ∧ o.failure? = some failure ∧ failure.code = "INVOKE_FAIL" ∧
      failure.typeName = report.typeName ∧ failure.message = report.message

/-- An outcome of a method, reached by these calls of the host, belongs to an ending.  Output is captured only while the
method is called. -/
structure Of (method : μ) (counts : Bool) (ending : Ending) (o : Outcome) (calls : List (HostCall τ μ)) : Prop where
  success : o.success = true ↔ ending = completed
  state : o.state = ending.state
  kind : o.failure?.map Failure.kind ∈ ending.kinds
  invoked : (invocations calls).length = ending.invoked
  calls : ending.Calls method counts o calls
  silent : ending = completed ∨ ending = thrown ∨ o.out = "" ∧ o.err = ""

theorem eq_of_mem_kinds {a b : Ending} {kind : Option String} (ha : kind ∈ a.kinds) (hb : kind ∈ b.kinds) : a = b := by
  cases a <;> cases b <;> simp_all [kinds]

/-- No outcome belongs to two endings. -/
theorem Of.unique {a b : Ending} {o : Outcome} {calls : List (HostCall τ μ)} (ha : a.Of method counts o calls)
    (hb : b.Of method counts o calls) : a = b :=
  eq_of_mem_kinds ha.kind hb.kind

end Ending

/-- Every outcome has an ending; and what interrupts the method ends in an outcome that tells of it, unless a stream was
closed on the way, which is only if streams may be closed (`closing`). -/
structure Settled (closing : Prop) (method : μ) (counts : Bool) (ended : Except Raised Outcome)
    (calls : List (HostCall τ μ)) : Prop where
  ending : ∀ o, ended = .ok o → ∃ ending : Ending, ending.Of method counts o calls
  thrown : ∀ c ∈ calls, ∀ f, c.raised? = some (.fault f) →
    (∃ o, ended = .ok o ∧ Ending.thrown.Of method counts o calls) ∨
      ended = .error (.fault .closedFile) ∧ closing

namespace Settled

variable {closing : Prop} {calls : List (HostCall τ μ)}

/-- An outcome that is reached before the method is called. -/
theorem early (ending : Ending) {state : InvocationState} {failure : Failure} (hcalls : Preparatory calls)
    (hstate : state = ending.state) (hkind : some failure.kind ∈ ending.kinds) (hnot : ending ≠ .completed)
    (hinvoked : ending.invoked = 0) (h : ending.Calls method counts (.early state failure) calls) :
    Settled closing method counts (.ok (.early state failure)) calls where
  ending o ho := by
    cases ho
    exact ⟨ending, iff_of_false Bool.false_ne_true hnot, hstate, hkind,
      by rw [hcalls.invocations_eq_nil, hinvoked]; rfl, h, .inr (.inr ⟨rfl, rfl⟩)⟩
  thrown c hc f hraised := by
    rw [hcalls.raised?_eq_none hc] at hraised
    cases hraised

theorem blocked (reason : Rejection) :
    Settled closing method counts (.ok (.early .blocked (.rejected reason))) ([] : List (HostCall τ μ)) :=
  early .blocked nofun rfl (List.mem_singleton.2 rfl) nofun rfl rfl

theorem cancelled (hcalls : Preparatory calls) : Settled closing method counts (.ok .cancelled) calls :=
  early .cancelled hcalls rfl (List.mem_singleton.2 rfl) nofun rfl hcalls

theorem unprepared (hcalls : Preparatory calls) {failure : Failure}
    (hkind : some failure.kind ∈ Ending.unprepared.kinds) :
    Settled closing method counts (.ok (.early .faulted failure)) calls :=
  early .unprepared hcalls rfl hkind nofun rfl hcalls

/-- Without an outcome there is nothing to say if no method was interrupted by a fault. -/
theorem error {raised : Raised} (hcalls : ∀ c ∈ calls, ∀ f, c.raised? ≠ some (.fault f)) :
    Settled closing method counts (.error raised) calls where
  ending _ ho := by cases ho
  thrown c hc f hraised := absurd hraised (hcalls c hc f)

variable {preparing calling : List (HostCall τ μ)}

theorem returned (hpreparing : Preparatory preparing) {v : Value} {counts' : Bool}
    (hcalled : Called method receiver arguments counts (.ok (counts', v)) calling) (out err : String) :
    Settled closing method counts (.ok (.completed v counts' out err)) (preparing ++ calling) where
  ending o ho := by
    cases ho
    refine ⟨.completed, iff_of_true rfl rfl, rfl, List.mem_singleton.2 rfl, ?_,
      ⟨preparing, receiver, arguments, calling, rfl, hpreparing, hcalled⟩, .inl rfl⟩
    rw [invocations_append, hpreparing.invocations_eq_nil, List.nil_append]
    exact hcalled.length_invocations
  thrown c hc f hraised := by
    rcases List.mem_append.1 hc with hc | hc
    · rw [hpreparing.raised?_eq_none hc] at hraised
      cases hraised
    · cases hcalled.eq_error_of_raised? hc hraised

theorem reported (hpreparing : Preparatory preparing) {f original : Fault} {unwraps : List (HostCall τ μ)}
    (report : FaultReport) (hcalled : Called method receiver arguments counts (.error (.fault f)) calling)
    (hunwraps : Unwraps maxWrappers f original unwraps) (out err : String) :
    Settled closing method counts (.ok (.failed .faulted (.thrown report) out err))
      (preparing ++ (calling ++ unwraps ++ [.report original (.ok report)])) := by
  have hof : Ending.thrown.Of method counts (.failed .faulted (.thrown report) out err)
      (preparing ++ (calling ++ unwraps ++ [.report original (.ok report)])) := by
    refine ⟨iff_of_false Bool.false_ne_true nofun, rfl, List.mem_singleton.2 rfl, ?_,
      ⟨preparing, receiver, arguments, f, calling, original, unwraps, report, .thrown report, rfl, hpreparing, hcalled,
        hunwraps, rfl, rfl, rfl, rfl⟩, .inr (.inl rfl)⟩
    simp only [invocations_append, hpreparing.invocations_eq_nil, hunwraps.invocations_eq_nil, List.length_append,
      hcalled.length_invocations]
    rfl
  exact ⟨fun o ho => by cases ho; exact ⟨_, hof⟩, fun _ _ _ _ => .inl ⟨_, rfl, hof⟩⟩

/-- The method closed a stream, so that there is no outcome. -/
theorem closed (hclosing : closing) : Settled closing method counts (.error (.fault .closedFile)) calls where
  ending _ ho := by cases ho
  thrown _ _ _ _ := .inr ⟨rfl, hclosing⟩

theorem left (hpreparing : Preparatory preparing) {e : Exit}
    (hcalled : Called method receiver arguments counts (.error (.exit e)) calling) :
    Settled closing method counts (.error (.exit e)) (preparing ++ calling) := by
  refine error fun c hc f hraised => ?_
  rcases List.mem_append.1 hc with hc | hc
  · rw [hpreparing.raised?_eq_none hc] at hraised
    cases hraised
  · cases hcalled.eq_error_of_raised? hc hraised

end Settled

/-! ### Runs -/

section

variable {h : Host τ μ σ} {m : Method} {kind : MethodKind}

/-- Why a method is not attempted, by its description. -/
def rejection? (m : Method) (kind : MethodKind) : Option Rejection :=
  if m.isGenericDefinition then some (.genericDefinition m.id)
  else if m.containsGenericParameters then some (.openTypeParameters m.id)
  else rejectionOfKind m.id kind

/-- What the host says of the method, it says at every time. -/
theorem records_always {act : Action σ α} {a : α} (hact : Always act (.ok a)) :
    Records Session.withCalls (fun ended calls => ended = .ok a ∧ calls = [])
      (act.recording fun _ => ([] : List (HostCall τ μ))) act :=
  (records_recording act _).and_ends (P := fun ended => ended = .ok a) fun s => by
    obtain ⟨_, hrun⟩ := hact s
    rw [hrun]

theorem records_validateDescribed (hkind : Always (h.methodKind method) (.ok kind)) (m : Method) :
    Records Session.withCalls (fun ended calls => ended = .ok (rejection? m kind) ∧ calls = [])
      (validateDescribed h.recorded method m) (validateDescribed h method m) := by
  rw [validateDescribed, validateDescribed, rejection?]
  split
  · exact Records.pure _ ⟨rfl, rfl⟩
  · split
    · exact Records.pure _ ⟨rfl, rfl⟩
    · refine (records_always hkind).bind ?_ ?_
      · rintro raised _ ⟨hok, -⟩
        cases hok
      · rintro kind _ ⟨hok, rfl⟩
        cases hok
        exact Records.pure _ ⟨rfl, rfl⟩

theorem records_invoke (hdescribe : Always (h.describe method) (.ok m))
    (hkind : Always (h.methodKind method) (.ok kind)) (hunwrap : ∀ f, Returns (h.unwrap f))
    (hreport : ∀ f, Returns (h.report f)) (hrejection : rejection? m kind = none)
    {preparing : List (HostCall τ μ)} (hpreparing : Preparatory preparing) (receiver : Value) (arguments : List Value)
    (cancellable : Bool) :
    Records Session.withCalls
      (fun ended calls => Settled (¬ ClosesNothing h) method (m.returnType != TypeName.void) ended (preparing ++ calls))
      (invoke h.recorded method receiver arguments cancellable) (invoke h method receiver arguments cancellable) := by
  refine (records_always hdescribe).bind ?_ ?_
  · rintro raised _ ⟨hok, -⟩
    cases hok
  rintro _ _ ⟨hok, rfl⟩
  cases hok
  refine (records_validateDescribed hkind m).bind ?_ ?_
  · rintro raised _ ⟨hok, -⟩
    cases hok
  rintro _ _ ⟨hok, rfl⟩
  cases hok
  rw [hrejection]
  refine Records.exclusively (records_isCancelled.bind ?_ ?_)
  · rintro raised _ ⟨⟨_, hok⟩, -⟩
    cases hok
  rintro cancelled _ ⟨-, rfl⟩
  split
  · refine Records.pure _ ?_
    simp only [List.append_nil]
    exact .cancelled hpreparing
  · have hcall : Records Session.withCalls
        (fun ended calls =>
          (∃ ended' out err, ended = ended'.map (fun result => ⟨result, out, err⟩) ∧
            Guarded method receiver arguments (m.returnType != TypeName.void) ended' calls) ∨
          ended = .error (.fault .closedFile) ∧ ¬ ClosesNothing h)
        (Action.captured h.redirectsConsole (guarded h.recorded method m receiver arguments))
        (Action.captured h.redirectsConsole (guarded h method m receiver arguments)) :=
      (records_guarded h hunwrap hreport method m receiver arguments).captured h.redirectsConsole
        (fun ended calls out err hguarded => .inl ⟨ended, out, err, rfl, hguarded⟩)
        fun _ _ hcloses _ => .inr ⟨rfl, fun hh =>
          hcloses (composes_keepsOpen.guarded hh method m receiver arguments)⟩
    refine hcall.bind ?_ ?_
    · rintro raised calls (⟨_ | _, out, err, hended, hguarded⟩ | ⟨hended, hcloses⟩)
      · cases hended
        cases hguarded with
        | left hcalled => exact .left hpreparing hcalled
      · cases hended
      · cases hended
        exact .closed hcloses
    · rintro ended calls (⟨_ | result, out, err, hended, hguarded⟩ | ⟨hended, -⟩)
      · cases hended
      · cases hended
        cases hguarded with
        | returned hcalled =>
          refine Records.pure _ ?_
          rw [List.append_nil]
          exact .returned hpreparing hcalled out err
        | reported report hcalled hunwraps =>
          refine Records.pure _ ?_
          rw [List.append_nil]
          exact .reported hpreparing report hcalled hunwraps out err
      · cases hended

theorem records_validate (hdescribe : Always (h.describe method) (.ok m))
    (hkind : Always (h.methodKind method) (.ok kind)) :
    Records Session.withCalls (fun ended calls => ended = .ok (rejection? m kind) ∧ calls = [])
      (validate h.recorded method) (validate h method) := by
  refine (records_always hdescribe).bind ?_ ?_
  · rintro raised _ ⟨hok, -⟩
    cases hok
  · rintro _ _ ⟨hok, rfl⟩
    cases hok
    exact records_validateDescribed hkind m

theorem records_run (hdescribe : Always (h.describe method) (.ok m))
    (hkind : Always (h.methodKind method) (.ok kind)) (hunwrap : ∀ f, Returns (h.unwrap f))
    (hreport : ∀ f, Returns (h.report f)) (inputs : List (Option String)) (receiver : Value) (cancellable : Bool) :
    Records Session.withCalls (Settled (¬ ClosesNothing h) method (m.returnType != TypeName.void))
      (run h.recorded method inputs receiver cancellable) (run h method inputs receiver cancellable) := by
  refine records_isCancelled.bind ?_ ?_
  · rintro raised _ ⟨⟨_, hok⟩, -⟩
    cases hok
  rintro cancelled _ ⟨-, rfl⟩
  split
  · exact Records.pure _ (.cancelled nofun)
  refine (records_validate hdescribe hkind).bind ?_ ?_
  · rintro raised _ ⟨hok, -⟩
    cases hok
  rintro _ _ ⟨hok, rfl⟩
  cases hok
  cases hrejection : rejection? m kind with
  | some reason => exact Records.pure _ (.blocked reason)
  | none =>
    refine Records.bind (prepares_prepare h method inputs receiver).attempt ?_ ?_
    · exact fun raised calls hpreparing => .error fun c hc f hraised => by
        rw [hpreparing.raised?_eq_none hc] at hraised
        cases hraised
    · intro ended calls hpreparing
      have hcalls : Preparatory (calls ++ []) := by rwa [List.append_nil]
      cases ended with
      | ok prepared =>
        exact records_invoke hdescribe hkind hunwrap hreport hrejection hpreparing prepared.1 prepared.2 cancellable
      | error f =>
        cases f with
        | conversion e => exact Records.pure _ (.unprepared hcalls (.head _))
        | instantiation e => exact Records.pure _ (.unprepared hcalls (.tail _ (.head _)))
        | _ =>
          refine Records.throw _ (.error fun c hc f hraised => ?_)
          rw [hcalls.raised?_eq_none hc] at hraised
          cases hraised

/-- Every outcome of an invocation belongs to exactly one ending, by the calls that were made of the host.  If a fault
interrupts the method, the invocation returns an outcome, which belongs to the last ending; or else it ends with the
fault of reading a closed file, which it never does if nothing that is called for the method closes a stream. -/
theorem run_ending (hdescribe : Always (h.describe method) (.ok m)) (hkind : Always (h.methodKind method) (.ok kind))
    (hunwrap : ∀ f, Returns (h.unwrap f)) (hreport : ∀ f, Returns (h.report f)) (inputs : List (Option String))
    (receiver : Value) (cancellable : Bool) (s : Session σ) :
    ∃ ended s' calls,
      (run h method inputs receiver cancellable).run s = (ended, s') ∧
      (run h.recorded method inputs receiver cancellable).run (s.withCalls []) = (ended, s'.withCalls calls) ∧
      (∀ o, ended = .ok o → ∃! ending : Ending, ending.Of method (m.returnType != TypeName.void) o calls) ∧
      ∀ c ∈ calls, ∀ f, c.raised? = some (.fault f) →
        (∃ o, ended = .ok o ∧ Ending.thrown.Of method (m.returnType != TypeName.void) o calls) ∨
          ended = .error (.fault .closedFile) ∧ ¬ ClosesNothing h := by
  obtain ⟨calls, hrun, hsettled⟩ :=
    records_run hdescribe hkind hunwrap hreport inputs receiver cancellable s []
  refine ⟨_, _, calls, rfl, hrun, fun o ho => ?_, hsettled.thrown⟩
  obtain ⟨ending, hof⟩ := hsettled.ending o ho
  exact ⟨ending, hof, fun other hother => hother.unique hof⟩

end

/-! ### A method that throws a cancellation -/

namespace Canceller

def type : ScriptedType where
  name := "Sample.Canceller"
  kind := .plainClass
  members := []
  element := ""
  created := none
  conversions := []
  conversionError := none
  constructors := [⟨[], []⟩]

/-- The exception looks like that of the pipeline, and is in one wrapper. -/
def stop : ScriptedMethod where
  type := "canceller"
  name := "Stop"
  parameters := []
  returnType := TypeName.void
  isStatic := false
  isGenericDefinition := false
  containsGenericParameters := false
  kind := .managed
  wrappers := 1
  body := [.write .out "stopping", .throwing (.fault (.error "Cancelled" "Invocation cancelled before dispatch" false))]

def host : Host String ScriptedCallable ScriptedRecord :=
  ScriptedTables.host ⟨[("canceller", type)], [("stop", stop)]⟩

def description : Method where
  declaringType := "Sample.Canceller"
  name := "Stop"
  assembly := "Json"

end Canceller

theorem run_ending_canceller :
    Always (Canceller.host.describe (.method "stop")) (.ok Canceller.description) ∧
    Always (Canceller.host.methodKind (.method "stop")) (.ok .managed) ∧
    (∀ f, Returns (Canceller.host.unwrap f)) ∧ (∀ f, Returns (Canceller.host.report f)) ∧
    ∃ o s', ∃ calls : List (HostCall String ScriptedCallable),
      (run Canceller.host (.method "stop") [] .none true).run (Session.start {}) = (.ok o, s') ∧
      (∃! ending : Ending, ending.Of (.method "stop") false o calls) ∧
      Ending.thrown.Of (.method "stop") false o calls ∧ o.failure?.map Failure.typeName = some "Cancelled" ∧
      o.out = "stopping" := by
  have hdescribe : Always (Canceller.host.describe (.method "stop")) (.ok Canceller.description) := fun s => ⟨s, rfl⟩
  have hkind : Always (Canceller.host.methodKind (.method "stop")) (.ok .managed) := fun s => ⟨s, rfl⟩
  have hunwrap f : Returns (Canceller.host.unwrap f) := fun s => ⟨f.inner?, rfl⟩
  have hreport f : Returns (Canceller.host.report f) := fun s => ⟨f.report, rfl⟩
  refine ⟨hdescribe, hkind, hunwrap, hreport, ?_⟩
  obtain ⟨ended, s', calls, hrun, hrecorded, hunique, hthrown⟩ :=
    run_ending hdescribe hkind hunwrap hreport [] .none true (Session.start {})
  have hended : ended = ((run Canceller.host (.method "stop") [] .none true).run (Session.start {})).1 := by rw [hrun]
  obtain ⟨_, t, logged, -, hlogged, f, hf⟩ :
      ∃ o t, ∃ logged : List (HostCall String ScriptedCallable),
        (run Canceller.host (.method "stop") [] .none true).run (Session.start {}) = (.ok o, t) ∧
        (run Canceller.host.recorded (.method "stop") [] .none true).run ((Session.start {}).withCalls []) =
          (.ok o, t.withCalls logged) ∧
        ∃ f, Raised.fault f ∈ logged.filterMap HostCall.raised? :=
    ⟨_, _, _, rfl, rfl, _, .head _⟩
  obtain ⟨-, hcalls⟩ := Prod.mk.inj (hrecorded.symm.trans hlogged)
  obtain rfl : calls = logged := congrArg (·.host.2) hcalls
  obtain ⟨c, hc, hraised⟩ := List.mem_filterMap.1 hf
  rcases hthrown c hc f hraised with ⟨o, rfl, hof⟩ | ⟨hclosed, -⟩
  case inr => cases hended.symm.trans hclosed
  refine ⟨o, s', calls, hrun, hunique o rfl, hof, ?_, ?_⟩
  · cases hended
    rfl
  · cases hended
    rfl

/-! ### Methods whose failures get lost -/

namespace Closer

/-- Closes the stream of the process that it finds, and throws. -/
def shut : ScriptedMethod :=
  { Canceller.stop with
    name := "Shut"
    isStatic := true
    body := [.closeOut, .throwing (.fault (.error "ValueError" "x" false))] }

def host : Host String ScriptedCallable ScriptedRecord :=
  ScriptedTables.host ⟨[("canceller", Canceller.type)], [("shut", shut)]⟩

end Closer

namespace Pooled

def type (name : String) : ReflectedType where
  fullName := some ("Sample." ++ name)
  name := name
  isEnum := false
  isArray := false
  isInterface := false
  isAbstract := false
  isValueType := false
  isPrimitive := false
  isByRef := false
  isGenericType := false
  base := none
  element := none
  definition := none
  arguments := []
  fields := []
  constructors := []
  methods := none
  assembly := ""

/-- Returns a task that has failed, in a value of a type of its own. -/
def start : ReflectedMethod where
  name := "Start"
  declaringType := some "program"
  returnType := some "pooled"
  isStatic := true
  isAbstract := false
  isGenericMethod := false
  isGenericMethodDefinition := false
  containsGenericParameters := false
  parameters := []
  token := none
  reflectedAs := "RuntimeMethodInfo"
  body := .body
  script := [.returning (.value (.valueTask "pooled"
    (.managedTask "task" .none (some (.fault (.error "ValueError" "x" false))))))]

def host : Host String String (Array Access) :=
  Reflection.host ⟨[("program", type "Program"), ("pooled", type "PooledTask")], [("start", start)]⟩

end Pooled

/-- A method that closes the stream of the process and throws has no outcome: its fault is caught, but not the failure
to read the stream afterwards.  And a task that has failed is not waited for in a value of a type that is not known for
it, so that the invocation completes. -/
theorem run_escaped :
    (∀ f, Returns (Closer.host.unwrap f)) ∧ (∀ f, Returns (Closer.host.report f)) ∧
    (∃ s', ∃ calls : List (HostCall String ScriptedCallable),
      (run Closer.host (.method "shut") [] .none false).run (Session.start {}) =
        (.error (.fault .closedFile), s') ∧
      (run Closer.host.recorded (.method "shut") [] .none false).run ((Session.start {}).withCalls []) =
        (.error (.fault .closedFile), s'.withCalls calls) ∧
      ∃ f, .fault f ∈ calls.filterMap HostCall.raised?) ∧
    ∃ o s', (run Pooled.host "start" [] .none false).run (Session.start #[]) = (.ok o, s') ∧ o.state = .completed :=
  ⟨fun f _ => ⟨f.inner?, rfl⟩, fun f _ => ⟨f.report, rfl⟩, ⟨_, _, rfl, rfl, _, .head _⟩, _, _, rfl, rfl⟩

end CilProbe.Invocation
