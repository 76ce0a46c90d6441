import CilProbe.Proofs.Invocation.Cancelled

/-!
# Batches

A batch calls methods one after the other until the session is cancelled.  Constructors and methods can cancel it at any
time, and they can fail; on an orderly host the batch returns outcomes nevertheless: `runAll_batch`.  On other hosts a
method that fails may stop it: `runAll_interrupted`.

* A batch proceeds method by method, and it stops in front of a method if the session is cancelled: `Proceeds`.
* Its outcomes are those of the first methods (`Batch.each`), and the method that the session is cancelled during is
  the last one (`Batch.stops`).  If there is no such method, all methods have outcomes: `Batch.complete`.
* No method is called in a cancelled session: `Batch.uncalled`.
-/

namespace CilProbe.Invocation

open Synthesis

variable {τ μ σ : Type}

/-- Calls methods in order with arguments that are made up, all of them. -/
def runEach (h : Host τ μ σ) (cancellable : Bool) (methods : List μ) : Action σ (List Outcome) :=
  methods.mapM fun method => run h method [] .none cancellable

/-- It is the turn of a method in a batch: the methods before it had these outcomes, and the session is not cancelled. -/
structure AtTurn (h : Host τ μ σ) (methods : List μ) (s : Session σ) (before : List Outcome) (method : μ)
    (u : Session σ) : Prop where
  method : methods[before.length]? = some method
  before : (runEach h true (methods.take before.length)).run s = (.ok before, u)
  running : u.cancelled = false

/-- What is true of a batch that starts in one session and returns outcomes in another.  Cancellations count only if
the batch can be cancelled. -/
structure Batch (h : Host τ μ σ) (cancellable : Bool) (methods : List μ) (s : Session σ) (outcomes : List Outcome)
    (t : Session σ) : Prop where
  /-- There is one outcome for each of the first methods. -/
  length_le : outcomes.length ≤ methods.length
  /-- The outcomes and the session are those of calling the first methods one after the other. -/
  each : (runEach h cancellable (methods.take outcomes.length)).run s = (.ok outcomes, t)
  /-- Without a cancellation every method has an outcome, however the methods before it ended. -/
  complete : (cancellable → t.cancelled = false) → outcomes.length = methods.length
  /-- Nothing is done in a session that is cancelled from the start. -/
  idle : cancellable → s.cancelled → outcomes = [] ∧ t = s
  /-- If the session is cancelled while a method is prepared or called, the outcome of this method is the last one. -/
  stops : cancellable → ∀ {before method u o v}, AtTurn h methods s before method u →
    (run h method [] .none true).run u = (.ok o, v) → v.cancelled → outcomes = before ++ [o] ∧ t = v
  /-- If it is cancelled while the method is prepared, and that succeeds, the outcome of the method is a cancellation. -/
  prepared : cancellable → ∀ {before method u u' prepared v}, AtTurn h methods s before method u →
    (validate h method).run u = (.ok none, u') → (prepare h method [] .none).run u' = (.ok prepared, v) → v.cancelled →
    outcomes = before ++ [.cancelled]
  /-- No method is called in a cancelled session: the batch is the same on a host where such calls do something else. -/
  uncalled : cancellable → ∀ f, (∀ method receiver arguments (u : Session σ), u.cancelled = false →
      (f method receiver arguments).run u = (h.invoke method receiver arguments).run u) →
    (runAll (h.withInvoke f) cancellable methods).run s = (.ok outcomes, t)

/-- How a batch proceeds. -/
inductive Proceeds (h : Host τ μ σ) (cancellable : Bool) : List μ → Session σ → List Outcome → Session σ → Prop
  | done (s : Session σ) : Proceeds h cancellable [] s [] s
  | stopped (methods : List μ) {s : Session σ} (hcancellable : cancellable) (hs : s.cancelled) :
    Proceeds h cancellable methods s [] s
  | next {method : μ} {methods : List μ} {s u t : Session σ} {o : Outcome} {outcomes : List Outcome}
    (hs : cancellable → s.cancelled = false) (hrun : (run h method [] .none cancellable).run s = (.ok o, u))
    (hrest : Proceeds h cancellable methods u outcomes t) :
    Proceeds h cancellable (method :: methods) s (o :: outcomes) t

variable {h : Host τ μ σ} {cancellable : Bool} {method : μ} {methods : List μ} {s t u v : Session σ}
  {o : Outcome} {before outcomes : List Outcome}

/-! ### One method after the other -/

theorem runEach_cons (hrun : (run h method [] .none cancellable).run s = (.ok o, u))
    (hrest : (runEach h cancellable methods).run u = (.ok outcomes, t)) :
    (runEach h cancellable (method :: methods)).run s = (.ok (o :: outcomes), t) := by
  rw [runEach, List.mapM_cons, run_bind_of_ok hrun]
  change ((runEach h cancellable methods) >>= _).run u = _
  rw [run_bind_of_ok hrest]
  rfl

theorem exists_of_runEach_cons (hrun : (runEach h cancellable (method :: methods)).run s = (.ok outcomes, t)) :
    ∃ o u rest, outcomes = o :: rest ∧ (run h method [] .none cancellable).run s = (.ok o, u) ∧
      (runEach h cancellable methods).run u = (.ok rest, t) := by
  rw [runEach, List.mapM_cons] at hrun
  change (_ >>= fun o => runEach h cancellable methods >>= fun rest => pure (o :: rest)).run s = _ at hrun
  rcases hfirst : (run h method [] .none cancellable).run s with ⟨_ | o, u⟩
  · rw [run_bind_of_error hfirst] at hrun
    cases hrun
  · rw [run_bind_of_ok hfirst] at hrun
    rcases hrest : (runEach h cancellable methods).run u with ⟨_ | rest, t'⟩
    · rw [run_bind_of_error hrest] at hrun
      cases hrun
    · rw [run_bind_of_ok hrest] at hrun
      cases hrun
      exact ⟨o, u, rest, rfl, rfl, hrest⟩

/-- Calling methods in a cancelled session changes nothing. -/
theorem eq_of_runEach_of_cancelled (hs : s.cancelled) (hrun : (runEach h true methods).run s = (.ok outcomes, t)) :
    t = s := by
  induction methods generalizing outcomes with
  | nil => cases hrun; rfl
  | cons method methods ih =>
    obtain ⟨o, u, rest, -, hfirst, hrest⟩ := exists_of_runEach_cons hrun
    rw [run_of_cancelled hs] at hfirst
    cases hfirst
    exact ih hrest

/-! ### Progress -/

namespace Proceeds

theorem length_le (hp : Proceeds h cancellable methods s outcomes t) : outcomes.length ≤ methods.length := by
  induction hp with
  | done => exact Nat.le_refl _
  | stopped => exact Nat.zero_le _
  | next _ _ _ ih => exact Nat.succ_le_succ ih

theorem each (hp : Proceeds h cancellable methods s outcomes t) :
    (runEach h cancellable (methods.take outcomes.length)).run s = (.ok outcomes, t) := by
  induction hp with
  | done | stopped => rfl
  | next _ hrun _ ih => exact runEach_cons hrun ih

theorem complete (hp : Proceeds h cancellable methods s outcomes t) (ht : cancellable → t.cancelled = false) :
    outcomes.length = methods.length := by
  induction hp with
  | done => rfl
  | stopped methods hcancellable hs =>
    rw [ht hcancellable] at hs
    cases hs
  | next _ _ _ ih => exact congrArg Nat.succ (ih ht)

theorem idle (hp : Proceeds h cancellable methods s outcomes t) (hcancellable : cancellable) (hs : s.cancelled) :
    outcomes = [] ∧ t = s := by
  cases hp with
  | done | stopped => exact ⟨rfl, rfl⟩
  | next hrunning =>
    rw [hrunning hcancellable] at hs
    cases hs

/-- The method that the session is cancelled during comes last. -/
theorem stops (hp : Proceeds h true methods s outcomes t) (hturn : AtTurn h methods s before method u)
    (hrun : (run h method [] .none true).run u = (.ok o, v)) (hv : v.cancelled) : outcomes = before ++ [o] ∧ t = v := by
  generalize hcancellable : true = cancellable at hp
  -- By the way the batch proceeds: it is the turn of its first method, or of a later one after the first.
  induction hp generalizing before with
  | done => cases hturn.method
  | stopped methods _ hs =>
    -- A session that is cancelled stays as it is, and so it is no method's turn.
    have hu := eq_of_runEach_of_cancelled hs hturn.before
    rw [← hu, hturn.running] at hs
    cases hs
  | next _ hfirst hrest ih =>
    subst hcancellable
    cases before with
    | nil =>
      cases hturn.method
      cases hturn.before
      cases hfirst.symm.trans hrun
      obtain ⟨rfl, rfl⟩ := hrest.idle rfl hv
      exact ⟨rfl, rfl⟩
    | cons o' before =>
      obtain ⟨_, u', _, hcons, hfirst', hbefore⟩ := exists_of_runEach_cons hturn.before
      cases hcons
      cases hfirst.symm.trans hfirst'
      obtain ⟨rfl, rfl⟩ := ih ⟨hturn.method, hbefore, hturn.running⟩
      exact ⟨rfl, rfl⟩

end Proceeds

/-- On an orderly host a batch always proceeds to its end. -/
theorem exists_proceeds (hh : Orderly h) (cancellable : Bool) (hplaced : ∀ method ∈ methods, Placed h method)
    (s : Session σ) :
    ∃ outcomes t, (runAll h cancellable methods).run s = (.ok outcomes, t) ∧
      Proceeds h cancellable methods s outcomes t := by
  induction methods generalizing s with
  | nil => exact ⟨[], s, rfl, .done s⟩
  | cons method methods ih =>
    rw [runAll, run_bind_of_ok (run_isCancelled s)]
    split
    · next hstop =>
      obtain ⟨hcancellable, hs⟩ := Bool.and_eq_true_iff.1 hstop
      exact ⟨[], s, rfl, .stopped _ hcancellable hs⟩
    · next hgo =>
      have hs : cancellable → s.cancelled = false := by simpa using hgo
      obtain ⟨o, ho⟩ := returns_run hh (hplaced method (.head _)) cancellable s
      rcases hrun : (run h method [] .none cancellable).run s with ⟨_, u⟩
      rw [hrun] at ho
      cases ho
      obtain ⟨outcomes, t, hrest, hproceeds⟩ := ih (fun m hm => hplaced m (.tail _ hm)) u
      rw [run_bind_of_ok hrun, run_bind_of_ok hrest]
      exact ⟨o :: outcomes, t, rfl, .next hs hrun hproceeds⟩

/-- A batch on an orderly host returns outcomes, and this is what is true of them. -/
theorem runAll_batch (hh : Orderly h) (cancellable : Bool) (hplaced : ∀ method ∈ methods, Placed h method)
    (s : Session σ) :
    ∃ outcomes t, (runAll h cancellable methods).run s = (.ok outcomes, t) ∧
      Batch h cancellable methods s outcomes t := by
  obtain ⟨outcomes, t, hrun, hproceeds⟩ := exists_proceeds hh cancellable hplaced s
  refine ⟨outcomes, t, hrun, ?_⟩
  exact {
    length_le := hproceeds.length_le
    each := hproceeds.each
    complete := hproceeds.complete
    idle := hproceeds.idle
    stops := by
      rintro rfl before method u o v hturn hrun hv
      exact hproceeds.stops hturn hrun hv
    prepared := by
      rintro rfl before method u u' prepared v hturn hvalidate hprepare hv
      obtain ⟨v', hrun', hv'⟩ := run_of_cancelled_meanwhile hh.toResponsive hturn.running hvalidate hprepare hv
      exact (hproceeds.stops hturn hrun' hv').1
    uncalled := by
      rintro rfl f hf
      rw [runAll_withInvoke hf, hrun] }

/-! ### A batch of three -/

namespace Workshop

/-- Methods 0 and 2 are static, and all methods fail.  The constructor with number 3, which makes the receiver of method
1, cancels the session. -/
def host (position : Int) : Host Unit Nat Unit where
  typeName _ := return "Sample.Workshop"
  typeKind _ := return .plainClass
  enumMembers _ := return []
  elementType _ := return ()
  newArray _ _ := return .none
  createDefault _ := Action.fail default
  convert _ _ := Action.fail default
  constructors _ := return [3]
  parameters m := return if m = 0 then [⟨"tool", (), "Sample.Workshop", position, false, none⟩] else []
  construct _ _ := do
    Action.setCancelled true
    return .text "workshop"
  declaringType _ := return ()
  describe m := return { declaringType := "Sample.Workshop", name := toString m, isStatic := m ≠ 1 }
  methodKind _ := return .managed
  invoke _ _ _ := Action.fail default
  isAwaitable _ := return false
  awaitResult _ := Action.fail default
  text f := return f.text
  unwrap f := return f.inner?
  report f := return f.report
  redirectsConsole := false

theorem responsive (position : Int) : Responsive (host position) where
  typeName _ := ⟨_, Steady.pure _⟩
  typeKind _ := ⟨_, Steady.pure _⟩
  enumMembers _ := ⟨_, Steady.pure _⟩
  elementType _ _ := ⟨_, Steady.pure _⟩
  constructors _ := ⟨_, Steady.pure _⟩
  parameters _ := ⟨_, Steady.pure _⟩
  declaringType _ := ⟨_, Steady.pure _⟩
  describe _ := ⟨_, Steady.pure _⟩
  methodKind _ := ⟨_, Steady.pure _⟩
  newArray _ _ _ := ⟨_, rfl⟩
  unwrap _ _ := ⟨_, rfl⟩
  report _ _ := ⟨_, rfl⟩
  createDefault _ := FailsOnly.throw ⟨_, rfl⟩
  construct _ _ _ := OnlyFails.ok _
  invoke _ _ _ := FailsOnly.throw ⟨_, rfl⟩
  isAwaitable _ := FailsOnly.pure _
  awaitResult _ := FailsOnly.throw ⟨_, rfl⟩

theorem closesNothing (position : Int) : ClosesNothing (host position) where
  invoke _ _ _ := Action.KeepsOpen.throw _
  isAwaitable _ := Action.KeepsOpen.pure _
  awaitResult _ := Action.KeepsOpen.throw _
  unwrap _ := Action.KeepsOpen.pure _
  report _ := Action.KeepsOpen.pure _

theorem orderly (position : Int) : Orderly (host position) where
  toResponsive := responsive position
  text f _ := ⟨f.text, rfl⟩
  closes := closesNothing position

theorem placed {position : Int} (h : 0 ≤ position) (method : Nat) : Placed (host position) method := by
  intro ps hps p hp
  obtain ⟨_, hrun, -⟩ := hps (Session.start ())
  cases hrun
  split at hp
  · cases List.mem_singleton.1 hp
    exact h
  · cases hp

end Workshop

theorem runAll_batch_workshop :
    Orderly (Workshop.host 0) ∧ (∀ method ∈ [0, 1, 2], Placed (Workshop.host 0) method) ∧
    ∃ outcomes t, (runAll (Workshop.host 0) true [0, 1, 2]).run (Session.start ()) = (.ok outcomes, t) ∧
      Batch (Workshop.host 0) true [0, 1, 2] (Session.start ()) outcomes t ∧
      outcomes.map Outcome.state = [.faulted, .cancelled] ∧ t.cancelled := by
  have hplaced : ∀ method ∈ [0, 1, 2], Placed (Workshop.host 0) method := fun m _ => Workshop.placed (Int.le_refl 0) m
  refine ⟨Workshop.orderly 0, hplaced, ?_⟩
  obtain ⟨outcomes, t, hrun, hbatch⟩ := runAll_batch (Workshop.orderly 0) true hplaced (Session.start ())
  have houtcomes : Except.ok outcomes =
      ((runAll (Workshop.host 0) true [0, 1, 2]).run (Session.start ())).1 := by rw [hrun]
  have ht : t = ((runAll (Workshop.host 0) true [0, 1, 2]).run (Session.start ())).2 := by rw [hrun]
  refine ⟨outcomes, t, hrun, hbatch, ?_, ?_⟩
  · cases houtcomes
    rfl
  · cases ht
    rfl

namespace Workshop

/-- The methods close the stream of the process and fail. -/
def closing : Host Unit Nat Unit :=
  { host 0 with
    invoke := fun _ _ _ => do
      Action.close .out
      Action.fail default }

/-- The constructor fails, with an exception that fails again when its text is taken. -/
def mute : Host Unit Nat Unit :=
  { host 0 with
    construct := fun _ _ => Action.fail default
    text := fun _ => Action.fail default }

theorem responsive_closing : Responsive closing :=
  { responsive 0 with
    invoke := fun _ _ _ => FailsOnly.bind (fun _ => OnlyFails.ok _) fun _ => FailsOnly.throw ⟨_, rfl⟩ }

theorem responsive_mute : Responsive mute :=
  { responsive 0 with construct := fun _ _ => FailsOnly.throw ⟨_, rfl⟩ }

theorem closesNothing_mute : ClosesNothing mute := { closesNothing 0 with }

end Workshop

/-- A method that closes its stream interrupts the batch, and so does a constructor that fails with an exception without
a text, and a parameter that stands before the first input.  The methods behind have no outcomes. -/
theorem runAll_interrupted :
    (Responsive Workshop.closing ∧ Legible Workshop.closing ∧ (∀ method, Placed Workshop.closing method) ∧
      ((runAll Workshop.closing true [0, 2]).run (Session.start ())).1 = .error (.fault .closedFile)) ∧
    (Responsive Workshop.mute ∧ ClosesNothing Workshop.mute ∧ (∀ method, Placed Workshop.mute method) ∧
      (runAll Workshop.mute true [1, 2]).run (Session.start ()) = (.error (.fault default), Session.start ())) ∧
    Orderly (Workshop.host (-1)) ∧
      (runAll (Workshop.host (-1)) true [0, 2]).run (Session.start ()) =
        (.error (.fault (.noInputAt (-1))), Session.start ()) :=
  ⟨⟨Workshop.responsive_closing, fun f _ => ⟨f.text, rfl⟩, Workshop.placed (Int.le_refl 0), rfl⟩,
    ⟨Workshop.responsive_mute, Workshop.closesNothing_mute, Workshop.placed (Int.le_refl 0), rfl⟩,
    Workshop.orderly (-1), rfl⟩

end CilProbe.Invocation
