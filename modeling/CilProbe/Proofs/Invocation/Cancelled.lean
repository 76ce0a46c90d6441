import CilProbe.Proofs.Invocation.Orderly
import Mathlib.Tactic.Simps.Basic

/-!
# Cancelled sessions

While a session is cancelled, no method is called: whatever a host would do there if a method was called, an invocation
that can be cancelled goes the same way (`run_withInvoke`, `runAll_withInvoke`).  An invocation that starts in a
cancelled session does nothing at all (`run_of_cancelled`).

Receivers and arguments are made without calling methods, so that there the hosts do not differ: `prepare_withInvoke`.
-/

namespace CilProbe

variable {τ μ σ : Type}

/-- The same host with another way to call methods. -/
@[simps]
def Host.withInvoke (h : Host τ μ σ) (f : μ → Value → List Value → Action σ Value) : Host τ μ σ :=
  { h with invoke := f }

namespace Invocation

open Synthesis

variable (h : Host τ μ σ) (f : μ → Value → List Value → Action σ Value)

/-! ### Receivers and arguments -/

theorem resolveAll_withInvoke (inputs : List (Option String)) (ps : List (Parameter τ)) :
    resolveAll (h.withInvoke f) inputs ps = resolveAll h inputs ps := by
  induction ps with
  | nil => rfl
  | cons p ps ih =>
    rw [resolveAll, resolveAll, ih]
    rfl

section

variable (build : τ → Search σ Value)

theorem argumentsFor_withInvoke (ps : List (Parameter τ)) :
    Search.argumentsFor (h.withInvoke f) build ps = Search.argumentsFor h build ps := by
  induction ps with
  | nil => rfl
  | cons p ps ih =>
    rw [Search.argumentsFor, Search.argumentsFor, ih]
    rfl

theorem firstOf_withInvoke (typeName : String) (last : Option Fault) (constructors : List (μ × List (Parameter τ))) :
    Search.firstOf (h.withInvoke f) build typeName last constructors =
      Search.firstOf h build typeName last constructors := by
  induction constructors generalizing last with
  | nil => cases last <;> rfl
  | cons c constructors ih =>
    -- The equation of the search is the same with and without a failure before, but it is stated twice.
    cases last
    all_goals
      simp only [Search.firstOf, argumentsFor_withInvoke, ih]
      rfl

theorem withParameters_withInvoke (constructors : List μ) :
    Search.withParameters (h.withInvoke f) constructors = Search.withParameters h constructors := by
  induction constructors with
  | nil => rfl
  | cons c constructors ih =>
    rw [Search.withParameters, Search.withParameters, ih]
    rfl

theorem ofType_withInvoke (typeName : String) (type : τ) :
    Search.ofType (h.withInvoke f) build typeName type = Search.ofType h build typeName type := by
  simp only [Search.ofType, Search.ofConstructors, firstOf_withInvoke, withParameters_withInvoke]
  rfl

end

theorem build_withInvoke (bound : Int) (levels : Nat) (depth : Int) (type : τ) :
    Search.build (h.withInvoke f) bound levels depth type = Search.build h bound levels depth type := by
  induction levels generalizing depth type with
  | zero => rfl
  | succ levels ih =>
    have hbuild : Search.build (h.withInvoke f) bound levels (depth + 1) = Search.build h bound levels (depth + 1) :=
      funext (ih (depth + 1))
    simp only [Search.build, hbuild, ofType_withInvoke]
    rfl

theorem instanceOf_withInvoke (type : τ) (bound depth : Int) :
    instanceOf (h.withInvoke f) type bound depth = instanceOf h type bound depth := by
  funext s
  rw [instanceOf, instanceOf, build_withInvoke]

theorem prepare_withInvoke (method : μ) (inputs : List (Option String)) (receiver : Value) :
    prepare (h.withInvoke f) method inputs receiver = prepare h method inputs receiver := by
  simp only [prepare, arguments, resolveAll_withInvoke, instanceOf_withInvoke, Host.withInvoke_parameters,
    Host.withInvoke_describe, Host.withInvoke_declaringType]

/-! ### Calls -/

section

variable {h f} {α β S : Type} {s : S}

/-- What comes first in a session decides how an action goes on. -/
theorem run_bind_congr {act act' : ExceptT Raised (StateM S) α} (hact : act.run s = act'.run s)
    (next : α → ExceptT Raised (StateM S) β) : (act >>= next).run s = (act' >>= next).run s := by
  rcases hrun : act'.run s with ⟨raised | a, s'⟩
  · rw [run_bind_of_error (hact.trans hrun), run_bind_of_error hrun]
  · rw [run_bind_of_ok (hact.trans hrun), run_bind_of_ok hrun]

theorem run_isCancelled (s : Session σ) : Action.isCancelled.run s = (.ok s.cancelled, s) := rfl

theorem run_exclusively (act : Action σ α) (s : Session σ) :
    (Action.exclusively act).run s =
      ((act.run { s with locked := true }).1, { (act.run { s with locked := true }).2 with locked := false }) := rfl

theorem run_exclusively_congr {act act' : Action σ α} {s : Session σ}
    (hact : act.run { s with locked := true } = act'.run { s with locked := true }) :
    (Action.exclusively act).run s = (Action.exclusively act').run s := by
  rw [run_exclusively, run_exclusively, hact]

theorem run_captured_congr {console : Bool} {act act' : Action σ α} {s : Session σ}
    (hact : act.run (s.redirected console) = act'.run (s.redirected console)) :
    (Action.captured console act).run s = (Action.captured console act').run s := by
  change Action.captured console act s = Action.captured console act' s
  rw [Action.captured, Action.captured, show act _ = act' _ from hact]

theorem unwrapped_withInvoke (n : Nat) (fault : Fault) : unwrapped (h.withInvoke f) n fault = unwrapped h n fault := by
  induction n generalizing fault with
  | zero => rfl
  | succ n ih => simp only [unwrapped, Host.withInvoke_unwrap, ih]

variable (hf : ∀ method receiver arguments (s : Session σ), s.cancelled = false →
  (f method receiver arguments).run s = (h.invoke method receiver arguments).run s)

include hf

theorem guarded_withInvoke (method : μ) (m : Method) (receiver : Value) (arguments : List Value) {s : Session σ}
    (hs : s.cancelled = false) :
    (guarded (h.withInvoke f) method m receiver arguments).run s = (guarded h method m receiver arguments).run s := by
  have hcall : (call (h.withInvoke f) method m receiver arguments).run s = (call h method m receiver arguments).run s :=
    run_bind_congr (hf method receiver arguments s hs) _
  have hattempt : (Action.attempt (call (h.withInvoke f) method m receiver arguments)).run s =
      (Action.attempt (call h method m receiver arguments)).run s := by rw [run_attempt, run_attempt, hcall]
  simp only [guarded, unwrapped_withInvoke, Host.withInvoke_report]
  exact run_bind_congr hattempt _

theorem invoke_withInvoke (method : μ) (receiver : Value) (arguments : List Value) :
    invoke (h.withInvoke f) method receiver arguments true = invoke h method receiver arguments true := by
  refine bind_congr fun m => bind_congr fun rejection => ?_
  cases rejection with
  | some reason => rfl
  | none =>
    -- The session is tested once more with the lock held, so a call begins in a session that is not cancelled.
    funext s
    refine run_exclusively_congr ?_
    generalize { s with locked := true } = locked
    rw [run_bind_of_ok (run_isCancelled locked), run_bind_of_ok (run_isCancelled locked)]
    cases hs : locked.cancelled with
    | true => rw [Bool.and_self, if_pos rfl, if_pos rfl]
    | false =>
      have hinside : (locked.redirected h.redirectsConsole).cancelled = false := hs
      exact run_bind_congr (run_captured_congr (guarded_withInvoke hf method m receiver arguments hinside)) _

theorem run_withInvoke (method : μ) (inputs : List (Option String)) (receiver : Value) :
    run (h.withInvoke f) method inputs receiver true = run h method inputs receiver true := by
  simp only [run, prepare_withInvoke, invoke_withInvoke hf]
  rfl

/-- No method is called in a cancelled session. -/
theorem runAll_withInvoke (methods : List μ) : runAll (h.withInvoke f) true methods = runAll h true methods := by
  induction methods with
  | nil => rfl
  | cons method methods ih => simp only [runAll, run_withInvoke hf, ih]

end

/-! ### Cancellations -/

section

variable {h} {α β : Type} {inputs : List (Option String)} {receiver : Value} {s t u : Session σ}

/-- Nothing is done in a session that is cancelled. -/
theorem run_of_cancelled (hs : s.cancelled) (method : μ) (inputs : List (Option String)) (receiver : Value) :
    (run h method inputs receiver true).run s = (.ok .cancelled, s) := by
  rw [run, run_bind_of_ok (run_isCancelled s), hs]
  rfl

theorem steady_validateDescribed {method : μ} {kind : MethodKind} (hkind : Steady (h.methodKind method) kind)
    (m : Method) : Steady (validateDescribed h method m) (rejection? m kind) := by
  rw [validateDescribed, rejection?]
  split
  · exact Steady.pure _
  · split
    · exact Steady.pure _
    · exact hkind.bind (Steady.pure _)

/-- A cancellation that comes before the call keeps the method from being called. -/
theorem invoke_of_cancelled {method : μ} {m : Method} {kind : MethodKind} (hdescribe : Steady (h.describe method) m)
    (hkind : Steady (h.methodKind method) kind) (hrejection : rejection? m kind = none) (hs : s.cancelled)
    (receiver : Value) (arguments : List Value) :
    ∃ s', (invoke h method receiver arguments true).run s = (.ok .cancelled, s') ∧ s'.cancelled := by
  obtain ⟨s₁, hrun, hs₁⟩ := hdescribe s
  obtain ⟨s₂, hrun', hs₂⟩ := steady_validateDescribed hkind m s₁
  have hcancelled : s₂.cancelled = true := by rw [hs₂, hs₁, hs]
  rw [hrejection] at hrun'
  refine ⟨{ s₂ with locked := false }, ?_, hcancelled⟩
  rw [invoke, run_bind_of_ok hrun, run_bind_of_ok hrun']
  change (Action.exclusively _).run s₂ = _
  rw [run_exclusively, run_bind_of_ok (run_isCancelled _)]
  dsimp only
  rw [hcancelled]
  rfl

/-- If a session is cancelled while a method is prepared, and preparing succeeds, then the method is not called. -/
theorem run_of_cancelled_meanwhile (hh : Responsive h) {method : μ} {prepared : Value × List Value}
    (hs : s.cancelled = false) (hvalidate : (validate h method).run s = (.ok none, t))
    (hprepare : (prepare h method inputs receiver).run t = (.ok prepared, u)) (hu : u.cancelled) :
    ∃ u', (run h method inputs receiver true).run s = (.ok .cancelled, u') ∧ u'.cancelled := by
  obtain ⟨m, hdescribe⟩ := hh.describe method
  obtain ⟨kind, hkind⟩ := hh.methodKind method
  have hrejection : rejection? m kind = none := by
    obtain ⟨s', hrun, -⟩ := hdescribe.bind (steady_validateDescribed hkind m) s
    have hended : ((validate h method).run s).1 = .ok (rejection? m kind) := congrArg Prod.fst hrun
    rw [hvalidate] at hended
    exact (Except.ok.inj hended).symm
  obtain ⟨u', hinvoke, hu'⟩ := invoke_of_cancelled hdescribe hkind hrejection hu prepared.1 prepared.2
  refine ⟨u', ?_, hu'⟩
  rw [run, run_bind_of_ok (run_isCancelled s), hs]
  change ExceptT.run (validate h method >>= _) s = _
  rw [run_bind_of_ok hvalidate, run_bind_of_ok (Action.run_attempt_of_ok hprepare)]
  exact hinvoke

end

end Invocation

end CilProbe
