import CilProbe.Host.Scripted
import CilProbe.Proofs.Invocation.Output
import CilProbe.Proofs.Invocation.Preparation

/-!
# Where code of the assembly runs

Code of the assembly runs when a constructor or a method is called.  `Host.sighted` is a host that does what another
host does and keeps what such code finds when it starts: whether the lock is held, and which streams stand in the places
for output (`Sight`).

* A method finds the lock held and the streams of its own invocation.  What it does to the output is shown by the
  outcome, as far as it goes to these streams, and the former streams are put back afterwards (`Round`).
* Constructors run before that, while the receiver is made.  They find the lock as it was before and the streams that
  stand in the places then; what they do to the output goes there, and nothing puts it back (`Outside`).

So only the calls of methods are kept apart from the rest of the process.  Both kinds of calls of one run: `run_sights`.
-/

namespace CilProbe

variable {τ μ σ α β : Type}

/-- A call that runs code of the assembly. -/
inductive CodeCall (μ : Type) where
  | construct (constructor : μ) (arguments : List Value)
  | invoke (method : μ) (receiver : Value) (arguments : List Value)

/-- What such code finds when it starts: whether the lock is held, and the streams in the places for output. -/
structure Sight (μ : Type) where
  call : CodeCall μ
  locked : Bool
  ports : Ports

/-- The same action, which first keeps what is found when it starts. -/
def Action.sighting (call : CodeCall μ) (act : Action σ α) : Action (σ × List (Sight μ)) α := fun s =>
  let (ended, t) := act s.withoutCalls
  (ended, t.withCalls (s.host.2 ++ [⟨call, s.locked, s.ports⟩]))

/-- The same host, which also keeps what code of the assembly finds when it starts. -/
def Host.sighted (h : Host τ μ σ) : Host τ μ (σ × List (Sight μ)) where
  typeName t := (h.typeName t).recording fun _ => []
  typeKind t := (h.typeKind t).recording fun _ => []
  enumMembers t := (h.enumMembers t).recording fun _ => []
  elementType t := (h.elementType t).recording fun _ => []
  newArray t length := (h.newArray t length).recording fun _ => []
  createDefault t := (h.createDefault t).recording fun _ => []
  convert text t := (h.convert text t).recording fun _ => []
  constructors t := (h.constructors t).recording fun _ => []
  parameters m := (h.parameters m).recording fun _ => []
  construct m arguments := (h.construct m arguments).sighting (.construct m arguments)
  declaringType m := (h.declaringType m).recording fun _ => []
  describe m := (h.describe m).recording fun _ => []
  methodKind m := (h.methodKind m).recording fun _ => []
  invoke m receiver arguments := (h.invoke m receiver arguments).sighting (.invoke m receiver arguments)
  isAwaitable v := (h.isAwaitable v).recording fun _ => []
  awaitResult v := (h.awaitResult v).recording fun _ => []
  text f := (h.text f).recording fun _ => []
  unwrap f := (h.unwrap f).recording fun _ => []
  report f := (h.report f).recording fun _ => []
  redirectsConsole := h.redirectsConsole

namespace Invocation

open Synthesis (Always)

variable {h : Host τ μ σ} {log : σ → List OutputStep}

/-- The log holds what constructors and methods do to the output.  Queries, conversions, defaults and the texts of
failures do nothing to it, and constructors leave the lock alone. -/
structure CodeLogs (h : Host τ μ σ) (log : σ → List OutputStep) : Prop extends Logs h log where
  typeName t : Silent log (h.typeName t)
  typeKind t : Silent log (h.typeKind t)
  enumMembers t : Silent log (h.enumMembers t)
  elementType t : Silent log (h.elementType t)
  newArray t length : Silent log (h.newArray t length)
  createDefault t : Silent log (h.createDefault t)
  convert text t : Silent log (h.convert text t)
  text f : Silent log (h.text f)
  constructors t : Silent log (h.constructors t)
  parameters m : Silent log (h.parameters m)
  declaringType m : Silent log (h.declaringType m)
  construct m arguments : Keeps log (h.construct m arguments)
  construct_locked m arguments s : ((h.construct m arguments).run s).2.locked = s.locked

/-! ### Constructors -/

/-- From one session to the other constructors did these steps to the output, each of them with the lock as it was
before and with the streams that the constructors before it had left in the places. -/
structure Outside (log : σ → List OutputStep) (s : Session σ) (sights : List (Sight μ)) (steps : List OutputStep)
    (t : Session σ) : Prop where
  performed : Performed log s steps t
  locked : t.locked = s.locked
  constructor : ∀ sight ∈ sights, ∃ constructor arguments, sight.call = .construct constructor arguments
  unlocked : ∀ sight ∈ sights, sight.locked = s.locked
  ports : ∀ sight ∈ sights, ∃ earlier, earlier <+: steps ∧ sight.ports = (s.output.perform earlier).ports
  silent : sights = [] → steps = []

namespace Outside

variable {s t u : Session σ} {sights : List (Sight μ)} {steps : List OutputStep}

theorem refl (s : Session σ) : Outside log s ([] : List (Sight μ)) [] s where
  performed := Performed.refl s
  locked := rfl
  constructor := nofun
  unlocked := nofun
  ports := nofun
  silent _ := rfl

theorem trans_silent (hout : Outside log s sights steps t) (ht : Performed log t [] u ∧ u.locked = t.locked) :
    Outside log s sights steps u := by
  have hperformed := hout.performed.trans ht.1
  rw [List.append_nil] at hperformed
  exact { hout with performed := hperformed, locked := ht.2.trans hout.locked }

/-- One more constructor is called. -/
theorem trans_construct (hout : Outside log s sights steps t) (constructor : μ) (arguments : List Value)
    {more : List OutputStep} (ht : Performed log t more u) (hlocked : u.locked = t.locked) :
    Outside log s (sights ++ [⟨.construct constructor arguments, t.locked, t.ports⟩]) (steps ++ more) u where
  performed := hout.performed.trans ht
  locked := hlocked.trans hout.locked
  constructor := by
    simp only [List.forall_mem_append, List.forall_mem_singleton]
    exact ⟨hout.constructor, constructor, arguments, rfl⟩
  unlocked := by
    simp only [List.forall_mem_append, List.forall_mem_singleton]
    exact ⟨hout.unlocked, hout.locked⟩
  ports := by
    simp only [List.forall_mem_append, List.forall_mem_singleton]
    constructor
    · intro sight hsight
      obtain ⟨earlier, hearlier, hports⟩ := hout.ports sight hsight
      exact ⟨earlier, hearlier.trans (List.prefix_append _ _), hports⟩
    · exact ⟨steps, List.prefix_append _ _, congrArg Output.ports hout.performed.output⟩
  silent hnil := by simp at hnil

end Outside

/-- A session and what was seen on the way there, of which `Q` holds. -/
private def Seen (log : σ → List OutputStep) (s : Session σ) (Q : List (Sight μ) → Prop) (t : Session σ)
    (t' : Session (σ × List (Sight μ))) : Prop :=
  ∃ sights steps, t' = t.withCalls sights ∧ Outside log s sights steps t ∧ Q sights

private theorem alike_silent {act : Action σ α} (hact : Silent log act) (s : Session σ) (Q : List (Sight μ) → Prop) :
    Alike (Seen log s Q) act (act.recording fun _ => []) := by
  rintro t _ ⟨sights, steps, rfl, hout, hQ⟩
  refine ⟨rfl, sights, steps, ?_, hout.trans_silent (hact t), hQ⟩
  exact congrArg (Session.withCalls _) (List.append_nil sights)

private theorem alike_construct (hlog : CodeLogs h log) (s : Session σ) (m : μ) (arguments : List Value) :
    Alike (Seen log s fun _ => True) (h.construct m arguments) (h.sighted.construct m arguments) := by
  rintro t _ ⟨sights, steps, rfl, hout, -⟩
  obtain ⟨more, hperformed⟩ := hlog.construct m arguments t
  exact ⟨rfl, _, _, rfl, hout.trans_construct m arguments hperformed (hlog.construct_locked m arguments t), trivial⟩

private theorem argumentsAlike (hlog : CodeLogs h log) (s : Session σ) (Q : List (Sight μ) → Prop) :
    ArgumentsAlike (Seen log s Q) h h.sighted where
  typeName t := alike_silent (hlog.typeName t) s Q
  typeKind t := alike_silent (hlog.typeKind t) s Q
  enumMembers t := alike_silent (hlog.enumMembers t) s Q
  elementType t := alike_silent (hlog.elementType t) s Q
  newArray t length := alike_silent (hlog.newArray t length) s Q
  createDefault t := alike_silent (hlog.createDefault t) s Q
  convert text t := alike_silent (hlog.convert text t) s Q
  text f := alike_silent (hlog.text f) s Q
  parameters m := alike_silent (hlog.parameters m) s Q

private theorem preparesAlike (hlog : CodeLogs h log) (s : Session σ) :
    PreparesAlike (Seen log s fun _ => True) h h.sighted where
  toArgumentsAlike := argumentsAlike hlog s _
  constructors t := alike_silent (hlog.constructors t) s _
  construct m arguments := alike_construct hlog s m arguments
  describe m := alike_silent (hlog.describe m) s _
  declaringType m := alike_silent (hlog.declaringType m) s _

/-- A receiver is given, or the method needs none. -/
def NothingToMake (h : Host τ μ σ) (method : μ) (receiver : Value) : Prop :=
  receiver ≠ .none ∨ ∃ m : Method, Always (h.describe method) (.ok m) ∧ m.isStatic = true

/-- A session and what was seen on the way there: nothing if there is nothing to make. -/
private abbrev Made (h : Host τ μ σ) (log : σ → List OutputStep) (method : μ) (receiver : Value) (s : Session σ) :
    Session σ → Session (σ × List (Sight μ)) → Prop :=
  Seen log s fun sights => NothingToMake h method receiver → sights = []

private theorem alike_prepare_sighted (hlog : CodeLogs h log) (method : μ) (inputs : List (Option String))
    (receiver : Value) (s : Session σ) :
    Alike (Made h log method receiver s) (prepare h method inputs receiver)
      (prepare h.sighted method inputs receiver) := by
  by_cases hnothing : NothingToMake h method receiver
  · -- What is left are the arguments, and no constructor is called for them.
    rw [prepare, prepare]
    refine (alike_arguments (argumentsAlike hlog s _) method inputs).bind fun arguments => ?_
    cases receiver with
    | none =>
      obtain ⟨m, hdescribe, hstatic⟩ := hnothing.resolve_left fun hne => hne rfl
      refine (alike_silent (hlog.describe method) s _).bind_always hdescribe ?_
      rw [if_pos hstatic, if_pos hstatic]
      exact Alike.pure _
    | _ => exact Alike.pure _
  · simp only [Made, hnothing, false_imp_iff]
    exact alike_prepare (preparesAlike hlog s) method inputs receiver

/-! ### Printing -/

/-- Steps of code that writes only to the streams in the places, and puts only streams there that it has opened.  There
were `n` streams when it started. -/
def Prints (n : Nat) : Output → List OutputStep → Prop
  | _, [] => True
  | o, step :: steps =>
    (match step with
      | .write stream _ => ∃ place, o.ports.stream place = stream
      | .put _ stream => n ≤ stream
      | .open => True) ∧ Prints n (o.step step) steps

theorem Ports.stream_put (p : Ports) (stream : Nat) (place place' : Place) :
    (p.put stream place).stream place' = if place' = place then stream else p.stream place' := by
  cases place <;> cases place' <;> rfl

/-- Such code does not write to a stream that was there before and stands in no place. -/
theorem Prints.textTo_eq {n : Nat} {o : Output} {steps : List OutputStep} (h : Prints n o steps) {stream : Nat}
    (hstream : stream < n) (hplaces : ∀ place, o.ports.stream place ≠ stream) : textTo stream steps = "" := by
  induction steps generalizing o with
  | nil => rfl
  | cons step steps ih =>
    obtain ⟨hstep, hsteps⟩ := h
    have hnext : ∀ place, (o.step step).ports.stream place ≠ stream := by
      intro place
      cases step with
      | put place' stream' =>
        rw [Output.step, Ports.stream_put]
        split
        · exact Nat.ne_of_gt (Nat.lt_of_lt_of_le hstream hstep)
        · exact hplaces place
      | _ => exact hplaces place
    have htext : step.text stream = "" := by
      cases step with
      | write stream' text =>
        obtain ⟨place, rfl⟩ := hstep
        exact if_neg (hplaces place)
      | _ => rfl
    rw [textTo, htext, ih hsteps hnext, String.empty_append]

/-! ### Methods -/

/-- The call of a method, from one session to the other, if it is reached.  The method finds the lock held and the
streams of its invocation.  The outcome shows what was written to these, and the former streams are put back.  What was
written to the former streams meanwhile is what the method wrote to these very streams; if it only prints, nothing. -/
structure Round (h : Host τ μ σ) (log : σ → List OutputStep) (out err : α → String) (method : μ) (s : Session σ)
    (sights : List (Sight μ)) (steps : List OutputStep) (ended : Except Raised α) (t : Session σ) : Prop where
  sights : sights = [] ∧ steps = [] ∨
    ∃ receiver arguments, sights = [⟨.invoke method receiver arguments, true, ownPorts h s⟩]
  logged : log t.host = log s.host ++ steps
  ports : t.ports = s.ports
  shown : ConsoleEmpty h s → ∀ a, ended = .ok a →
    out a = textTo (ownPorts h s).out steps ++ textTo (ownPorts h s).consoleOut steps ∧
    err a = textTo (ownPorts h s).err steps ++ textTo (ownPorts h s).consoleErr steps
  former : ∀ stream < s.streams.size, (∀ place, (ownPorts h s).stream place ≠ stream) →
    t.written stream = s.written stream ++ textTo stream steps ∧
      (Prints s.streams.size (s.redirected h.redirectsConsole).output steps → t.written stream = s.written stream)

namespace Round

variable {out err : α → String} {method : μ} {s s' t : Session σ} {sights : List (Sight μ)} {steps : List OutputStep}
  {ended : Except Raised α}

/-- The method is not called. -/
theorem refl (hshown : ∀ a, ended = .ok a → out a = "" ∧ err a = "") :
    Round h log out err method s [] [] ended s where
  sights := .inl ⟨rfl, rfl⟩
  logged := (List.append_nil _).symm
  ports := rfl
  shown _ := hshown
  former _ _ _ := ⟨String.append_empty.symm, fun _ => rfl⟩

/-- What is shown may be put into another form. -/
theorem map {ended' : Except Raised β} {out' err' : β → String}
    (hround : Round h log out err method s sights steps ended t)
    (hended : ∀ b, ended' = .ok b → ∃ a, ended = .ok a ∧ out' b = out a ∧ err' b = err a) :
    Round h log out' err' method s sights steps ended' t := by
  refine ⟨hround.sights, hround.logged, hround.ports, fun hconsole b hb => ?_, hround.former⟩
  obtain ⟨a, ha, hout, herr⟩ := hended b hb
  rw [hout, herr]
  exact hround.shown hconsole a ha

/-- What happens before without output does not matter. -/
theorem of_silent (hs : Performed log s [] s') (hround : Round h log out err method s' sights steps ended t) :
    Round h log out err method s sights steps ended t := by
  have houtput : s'.output = s.output := hs.output
  have hports : s'.ports = s.ports := congrArg Output.ports houtput
  have hstreams : s'.streams = s.streams := congrArg Output.streams houtput
  have hlogged : log s'.host = log s.host := hs.logged.trans (List.append_nil _)
  have hredirected : (s'.redirected h.redirectsConsole).output = (s.redirected h.redirectsConsole).output := by
    simp only [Session.redirected, Session.output, hports, hstreams]
  have hown : ownPorts h s' = ownPorts h s := congrArg Output.ports hredirected
  obtain ⟨hsights, hlog, hkept, hshown, hformer⟩ := hround
  rw [hown, hredirected, hstreams] at hformer
  rw [hown] at hshown hsights
  refine ⟨hsights, hlog.trans (by rw [hlogged]), hkept.trans hports, fun hconsole => hshown ?_,
    fun stream hlt hne => ?_⟩
  · unfold ConsoleEmpty Session.written at hconsole ⊢
    rwa [hports, hstreams]
  · have := hformer stream hlt hne
    unfold Session.written at this ⊢
    rwa [hstreams] at this

end Round

private theorem written_clear_of_ne {s : Session σ} {stream stream' : Nat} (hne : stream' ≠ stream) :
    (s.clear stream').written stream = s.written stream := by
  have hread (streams : Array String) : streams.getD stream "" = (streams[stream]?).getD "" := by simp
  unfold Session.clear Session.written
  rw [hread, hread, Array.getElem?_modify, if_neg hne]

private theorem written_redirected {s : Session σ} {stream : Nat} (hstream : stream < s.streams.size) (console : Bool) :
    stream < (s.redirected console).output.streams.size ∧
      (s.redirected console).output.written stream = s.written stream := by
  have hsize : stream < (s.streams ++ #["", "", "", ""]).size := by
    rw [Array.size_append]
    exact Nat.lt_of_lt_of_le hstream (Nat.le_add_right _ _)
  refine ⟨hsize, ?_⟩
  change (s.streams ++ #["", "", "", ""]).getD stream "" = s.streams.getD stream ""
  rw [← Array.getElem_eq_getD (h := hsize), Array.getElem_append_left hstream, Array.getElem_eq_getD]

theorem round_captured (hlog : Logs h log) (method : μ) (m : Method) (receiver : Value) (arguments : List Value)
    (s : Session σ) :
    ∃ steps, Round h log Action.Captured.out Action.Captured.err method s
      [⟨.invoke method receiver arguments, true, ownPorts h s⟩] steps
      ((Action.captured h.redirectsConsole (guarded h method m receiver arguments)).run s).1
      ((Action.captured h.redirectsConsole (guarded h method m receiver arguments)).run s).2 := by
  have hguarded := keeps_guarded hlog method m receiver arguments
  have hkept := kept_captured (h := h) hguarded s
  obtain ⟨steps, hperformed⟩ := hguarded (s.redirected h.redirectsConsole)
  refine ⟨steps, .inr ⟨receiver, arguments, rfl⟩, hperformed.logged, hkept.ports, fun hconsole => ?_,
    fun stream hstream hown => ?_⟩
  · -- The log says that the steps are the same.
    obtain ⟨steps', hlogged, hshown⟩ := hkept.shown hconsole
    obtain rfl : steps' = steps := List.append_cancel_left (hlogged.symm.trans hperformed.logged)
    exact hshown
  · obtain ⟨hlt, hwritten⟩ := written_redirected hstream h.redirectsConsole
    have hformer :
        ((Action.captured h.redirectsConsole (guarded h method m receiver arguments)).run s).2.written stream =
          s.written stream ++ textTo stream steps := by
      rw [← hwritten, ← Output.written_perform hlt, ← hperformed.output]
      exact (written_clear_of_ne (hown .consoleErr)).trans (written_clear_of_ne (hown .consoleOut))
    refine ⟨hformer, fun hprints => ?_⟩
    rw [hformer, hprints.textTo_eq hstream hown, String.append_empty]

/-! ### The sighted host -/

/-- A session with these sights. -/
private def With (sights : List (Sight μ)) (t : Session σ) (t' : Session (σ × List (Sight μ))) : Prop :=
  t' = t.withCalls sights

private theorem alike_with (sights : List (Sight μ)) (act : Action σ α) :
    Alike (With sights) act (act.recording fun _ => []) := by
  rintro t _ rfl
  exact ⟨rfl, congrArg (Session.withCalls _) (List.append_nil sights)⟩

private theorem alike_unwrapped (sights : List (Sight μ)) (n : Nat) (f : Fault) :
    Alike (With sights) (unwrapped h n f) (unwrapped h.sighted n f) := by
  induction n generalizing f with
  | zero => exact Alike.pure f
  | succ n ih =>
    refine (alike_with sights (h.unwrap f)).bind fun inner? => ?_
    cases inner? with
    | none => exact Alike.pure f
    | some inner => exact ih inner

/-- The method is the first thing that runs. -/
private theorem matches_call (method : μ) (m : Method) (receiver : Value) (arguments : List Value) (s : Session σ)
    (sights : List (Sight μ)) :
    Matches (fun t t' => t = s ∧ With sights t t')
      (fun _ => With (sights ++ [⟨.invoke method receiver arguments, s.locked, s.ports⟩]))
      (call h method m receiver arguments) (call h.sighted method m receiver arguments) := by
  have hinvoke : Matches (fun t t' => t = s ∧ With sights t t')
      (fun _ => With (sights ++ [⟨.invoke method receiver arguments, s.locked, s.ports⟩]))
      (h.invoke method receiver arguments) (h.sighted.invoke method receiver arguments) := by
    rintro t _ ⟨rfl, rfl⟩
    exact ⟨rfl, rfl⟩
  refine hinvoke.bind (fun _ _ _ => id) fun v => ?_
  refine (alike_with _ (h.isAwaitable v)).bind fun awaitable => ?_
  cases awaitable with
  | false => exact Alike.pure _
  | true => exact alike_with _ (h.awaitResult v)

private theorem matches_guarded (method : μ) (m : Method) (receiver : Value) (arguments : List Value) (s : Session σ)
    (sights : List (Sight μ)) :
    Matches (fun t t' => t = s ∧ With sights t t')
      (fun _ => With (sights ++ [⟨.invoke method receiver arguments, s.locked, s.ports⟩]))
      (guarded h method m receiver arguments) (guarded h.sighted method m receiver arguments) := by
  have hattempt : Matches (fun t t' => t = s ∧ With sights t t')
      (fun _ => With (sights ++ [⟨.invoke method receiver arguments, s.locked, s.ports⟩]))
      (Action.attempt (call h method m receiver arguments))
      (Action.attempt (call h.sighted method m receiver arguments)) :=
    (matches_call method m receiver arguments s sights).change (run_attempt _) (run_attempt _) fun _ _ _ => id
  refine hattempt.bind (fun _ _ _ => id) fun ended => ?_
  cases ended with
  | ok result => exact Alike.pure _
  | error f =>
    refine (alike_unwrapped _ maxWrappers f).bind fun original => ?_
    exact (alike_with _ (h.report original)).bind fun report => Alike.pure _

/-- What is reached in an invocation from one session, with the sights of what was prepared for it. -/
private def Reached {α : Type} (h : Host τ μ σ) (log : σ → List OutputStep) (out err : α → String) (method : μ)
    (s : Session σ) (sights : List (Sight μ)) (ended : Except Raised α) (t : Session σ)
    (t' : Session (σ × List (Sight μ))) : Prop :=
  ∃ calling steps, t' = t.withCalls (sights ++ calling) ∧ Round h log out err method s calling steps ended t

/-- A session that is reached without output, with these sights. -/
private def Quiet (log : σ → List OutputStep) (s : Session σ) (locked : Bool) (sights : List (Sight μ)) (t : Session σ)
    (t' : Session (σ × List (Sight μ))) : Prop :=
  With sights t t' ∧ t.locked = locked ∧ Performed log s [] t

private theorem alike_quiet {act : Action σ α} (hact : Silent log act) (s : Session σ) (locked : Bool)
    (sights : List (Sight μ)) : Alike (Quiet log s locked sights) act (act.recording fun _ => []) := by
  rintro t t' ⟨ht, hlocked, hperformed⟩
  obtain ⟨hended, ht⟩ := alike_with sights act t t' ht
  exact ⟨hended, ht, (hact t).2.trans hlocked, hperformed.trans (hact t).1⟩

/-- Without the call of a method nothing is shown. -/
private theorem reached_of_quiet {out err : α → String} {method : μ} {s t : Session σ} {locked : Bool}
    {sights : List (Sight μ)} {t' : Session (σ × List (Sight μ))} {ended : Except Raised α}
    (ht : Quiet log s locked sights t t') (hshown : ∀ a, ended = .ok a → out a = "" ∧ err a = "") :
    Reached h log out err method s sights ended t t' := by
  obtain ⟨rfl, -, hperformed⟩ := ht
  exact ⟨[], [], by rw [List.append_nil], (Round.refl hshown).of_silent hperformed⟩

private theorem matches_captured (hlog : Logs h log) (method : μ) (m : Method) (receiver : Value)
    (arguments : List Value) (s : Session σ) (sights : List (Sight μ)) :
    Matches (Quiet log s true sights)
      (Reached h log Action.Captured.out Action.Captured.err method s sights)
      (Action.captured h.redirectsConsole (guarded h method m receiver arguments))
      (Action.captured h.redirectsConsole (guarded h.sighted method m receiver arguments)) := by
  rintro t _ ⟨rfl, hlocked, hperformed⟩
  obtain ⟨hended, hsights⟩ := matches_guarded (h := h) method m receiver arguments (t.redirected h.redirectsConsole)
    sights _ ((t.redirected h.redirectsConsole).withCalls sights) ⟨rfl, rfl⟩
  -- A capture looks at the streams only, so it treats both runs of the method alike.
  have hguarded : (guarded h.sighted method m receiver arguments).run
      ((t.redirected h.redirectsConsole).withCalls sights) = (_, _) := Prod.ext hended.symm hsights
  have hcaptured : (Action.captured h.redirectsConsole (guarded h.sighted method m receiver arguments)).run
      (t.withCalls sights) =
      (((Action.captured h.redirectsConsole (guarded h method m receiver arguments)).run t).1,
        ((Action.captured h.redirectsConsole (guarded h method m receiver arguments)).run t).2.withCalls
          (sights ++ [⟨.invoke method receiver arguments, t.locked, ownPorts h t⟩])) := by
    change Action.captured h.redirectsConsole (guarded h.sighted method m receiver arguments) (t.withCalls sights) = _
    rw [Action.captured, show guarded h.sighted method m receiver arguments
      ((t.withCalls sights).redirected h.redirectsConsole) = _ from hguarded]
    rfl
  obtain ⟨steps, hround⟩ := round_captured hlog method m receiver arguments t
  rw [hcaptured, hlocked]
  exact ⟨rfl, _, steps, rfl, hround.of_silent hperformed⟩

private theorem matches_exclusively {out err : α → String} {method : μ} {s : Session σ} {sights : List (Sight μ)}
    {act : Action σ α} {act' : Action (σ × List (Sight μ)) α}
    (hact : Matches (Quiet log s true sights) (Reached h log out err method s sights) act act') :
    Matches (Quiet log s false sights) (Reached h log out err method s sights) (Action.exclusively act)
      (Action.exclusively act') := by
  rintro t _ ⟨rfl, -, hperformed⟩
  obtain ⟨hended, calling, steps, ht, hround⟩ := hact { t with locked := true }
    (Session.withCalls { t with locked := true } sights) ⟨rfl, rfl, hperformed.output, hperformed.logged⟩
  refine ⟨hended, calling, steps, ?_, hround.sights, hround.logged, hround.ports, hround.shown, hround.former⟩
  exact congrArg (fun u : Session (σ × List (Sight μ)) => { u with locked := false }) ht

private theorem alike_validateDescribed (method : μ) (m : Method)
    {E : Session σ → Session (σ × List (Sight μ)) → Prop}
    (hE : Alike E (h.methodKind method) (h.sighted.methodKind method)) :
    Alike E (validateDescribed h method m) (validateDescribed h.sighted method m) := by
  rw [validateDescribed, validateDescribed]
  split
  · exact Alike.pure _
  split
  · exact Alike.pure _
  · exact hE.bind fun kind => Alike.pure _

private theorem matches_invoke (hlog : Logs h log) (method : μ) (receiver : Value) (arguments : List Value)
    (cancellable : Bool) (s : Session σ) (sights : List (Sight μ)) :
    Matches (Quiet log s false sights) (Reached h log Outcome.out Outcome.err method s sights)
      (invoke h method receiver arguments cancellable) (invoke h.sighted method receiver arguments cancellable) := by
  -- An invocation may end at every point before the call.
  have hraised {locked : Bool} (raised : Raised) (t : Session σ) (t' : Session (σ × List (Sight μ)))
      (ht : Quiet log s locked sights t t') :
      Reached h log Outcome.out Outcome.err method s sights (.error raised) t t' :=
    reached_of_quiet ht fun _ ho => by cases ho
  have hreturned {locked : Bool} {o : Outcome} (ho : o.out = "" ∧ o.err = "") (t : Session σ)
      (t' : Session (σ × List (Sight μ))) (ht : Quiet log s locked sights t t') :
      Reached h log Outcome.out Outcome.err method s sights (.ok o) t t' :=
    reached_of_quiet ht fun o' ho' => by cases ho'; exact ho
  refine Matches.bind (alike_quiet (hlog.describe method) s false sights) hraised fun m => ?_
  have hkind := alike_quiet (hlog.methodKind method) s false sights
  refine Matches.bind (alike_validateDescribed method m hkind) hraised fun rejection? => ?_
  cases rejection? with
  | some reason => exact Matches.pure (hreturned ⟨rfl, rfl⟩)
  | none =>
    have hcancelled : Alike (Quiet log s true sights) Action.isCancelled Action.isCancelled := by
      refine Alike.isCancelled ?_
      rintro t _ ⟨rfl, -⟩
      rfl
    refine matches_exclusively (Matches.bind hcancelled hraised fun cancelled => ?_)
    split
    · exact Matches.pure (hreturned ⟨rfl, rfl⟩)
    · refine Matches.bind (matches_captured hlog method m receiver arguments s sights) ?_ fun ended => ?_
      · rintro raised t t' ⟨calling, steps, ht, hround⟩
        exact ⟨calling, steps, ht, hround.map fun _ ho => by cases ho⟩
      · have hshown {o : Outcome} (ho : o.out = ended.out ∧ o.err = ended.err) (t : Session σ)
            (t' : Session (σ × List (Sight μ)))
            (hreached : Reached h log Action.Captured.out Action.Captured.err method s sights (.ok ended) t t') :
            Reached h log Outcome.out Outcome.err method s sights (.ok o) t t' := by
          obtain ⟨calling, steps, ht, hround⟩ := hreached
          exact ⟨calling, steps, ht, hround.map fun o' ho' => by cases ho'; exact ⟨ended, rfl, ho⟩⟩
        rcases ended with ⟨report | ⟨counts, v⟩, out, err⟩
        · exact Matches.pure (hshown ⟨rfl, rfl⟩)
        · exact Matches.pure (hshown ⟨rfl, rfl⟩)

/-! ### Runs -/

/-- How a run from one session to the other ends: constructors are called outside, then the method is. -/
private def Whole (h : Host τ μ σ) (log : σ → List OutputStep) (method : μ) (receiver : Value) (s : Session σ)
    (ended : Except Raised Outcome) (t : Session σ) (t' : Session (σ × List (Sight μ))) : Prop :=
  ∃ u making calling before steps, t' = t.withCalls (making ++ calling) ∧ Outside log s making before u ∧
    Round h log Outcome.out Outcome.err method u calling steps ended t ∧ t.locked = false ∧
    (NothingToMake h method receiver → making = [])

private theorem matches_run (hlog : CodeLogs h log) (method : μ) (inputs : List (Option String)) (receiver : Value)
    (cancellable : Bool) {s : Session σ} (hlocked : s.locked = false) :
    Matches (Made h log method receiver s) (Whole h log method receiver s) (run h method inputs receiver cancellable)
      (run h.sighted method inputs receiver cancellable) := by
  -- A run may end at every point before the method is called.
  have hearly (ended : Except Raised Outcome) (hshown : ∀ o, ended = .ok o → o.out = "" ∧ o.err = "")
      (t : Session σ) (t' : Session (σ × List (Sight μ))) (ht : Made h log method receiver s t t') :
      Whole h log method receiver s ended t t' := by
    obtain ⟨making, before, rfl, hout, hmaking⟩ := ht
    exact ⟨t, making, [], before, [], by rw [List.append_nil], hout, Round.refl hshown, hout.locked.trans hlocked,
      hmaking⟩
  have hraised (raised : Raised) := hearly (.error raised) fun _ ho => by cases ho
  have hreturned {o : Outcome} (ho : o.out = "" ∧ o.err = "") :=
    hearly (.ok o) fun o' ho' => by cases ho'; exact ho
  have hcancelled : Alike (Made h log method receiver s) Action.isCancelled Action.isCancelled := by
    refine Alike.isCancelled ?_
    rintro t _ ⟨_, _, rfl, -⟩
    rfl
  refine Matches.bind hcancelled hraised fun cancelled => ?_
  split
  · exact Matches.pure (hreturned ⟨rfl, rfl⟩)
  have hvalidate : Alike (Made h log method receiver s) (validate h method) (validate h.sighted method) :=
    (alike_silent (hlog.describe method) s _).bind fun m =>
      alike_validateDescribed method m (alike_silent (hlog.methodKind method) s _)
  refine Matches.bind hvalidate hraised fun rejection? => ?_
  cases rejection? with
  | some reason => exact Matches.pure (hreturned ⟨rfl, rfl⟩)
  | none =>
    refine Matches.bind (alike_prepare_sighted hlog method inputs receiver s).attempt hraised fun prepared => ?_
    rcases prepared with f | ⟨receiver', arguments⟩
    · cases f with
      | conversion | instantiation => exact Matches.pure (hreturned ⟨rfl, rfl⟩)
      | _ => exact Matches.throw (hraised _)
    · -- What constructors did lies behind the session in which the invocation starts.
      rintro t _ ⟨making, before, rfl, hout, hmaking⟩
      have hfree : t.locked = false := hout.locked.trans hlocked
      obtain ⟨hended, calling, steps, ht, hround⟩ := matches_invoke hlog.toLogs method receiver' arguments cancellable
        t making t (t.withCalls making) ⟨rfl, hfree, Performed.refl t⟩
      exact ⟨hended, t, making, calling, before, steps, ht, hout, hround,
        unlocked_invoke hlog.toLogs method receiver' arguments cancellable t hfree, hmaking⟩

/-- Constructors run first, outside: with the lock free, and with the streams that they find and leave in the places for
output.  Then the method runs, if it is reached: with the lock held, and with streams of its own that the outcome shows.
At the end the lock is free, and the streams that the constructors have left are back in the places; they are the former
ones if there was nothing to make. -/
theorem run_sights (hlog : CodeLogs h log) (method : μ) (inputs : List (Option String)) (receiver : Value)
    (cancellable : Bool) (s : Session σ) (hlocked : s.locked = false) :
    ∃ ended t u making calling before steps,
      (run h method inputs receiver cancellable).run s = (ended, t) ∧
      (run h.sighted method inputs receiver cancellable).run (s.withCalls []) =
        (ended, t.withCalls (making ++ calling)) ∧
      Outside log s making before u ∧ Round h log Outcome.out Outcome.err method u calling steps ended t ∧
      t.locked = false ∧ (NothingToMake h method receiver → making = []) := by
  obtain ⟨hended, u, making, calling, before, steps, ht, hout, hround, hfree, hmaking⟩ :=
    matches_run hlog method inputs receiver cancellable hlocked s (s.withCalls [])
      ⟨[], [], rfl, Outside.refl s, fun _ => rfl⟩
  exact ⟨_, _, u, making, calling, before, steps, rfl, Prod.ext hended.symm ht, hout, hround, hfree, hmaking⟩

namespace Printer

/-- Writes to the process, and leaves a new stream in the place for that. -/
def say (text : String) : Action (List OutputStep) Value := fun s =>
  (Recital.perform [.write s.ports.out text, .open, .put .out s.streams.size] >>= fun _ => pure .none) s

/-- A host whose constructors and methods are texts that they say. -/
def host : Host Unit String (List OutputStep) where
  typeName _ := return "Sample.Printer"
  typeKind _ := return .plainClass
  enumMembers _ := return []
  elementType _ := return ()
  newArray _ _ := return .none
  createDefault _ := return .none
  convert _ _ := return .none
  constructors _ := return ["building "]
  parameters _ := return []
  construct text _ := say text
  declaringType _ := return ()
  describe _ := return { declaringType := "Sample.Printer", name := "Print" }
  methodKind _ := return .managed
  invoke text _ _ := say text
  isAwaitable _ := return false
  awaitResult v := return (true, v)
  text f := return f.text
  unwrap f := return f.inner?
  report f := return f.report
  redirectsConsole := true

theorem keeps_say (text : String) : Keeps id (say text) := fun _ => ⟨_, rfl, rfl⟩

theorem codeLogs_host : CodeLogs host id where
  describe _ s := ⟨Performed.refl s, rfl⟩
  methodKind _ s := ⟨Performed.refl s, rfl⟩
  invoke text _ _ := keeps_say text
  isAwaitable _ := Keeps.pure _
  awaitResult _ := Keeps.pure _
  unwrap _ := Keeps.pure _
  report _ := Keeps.pure _
  typeName _ s := ⟨Performed.refl s, rfl⟩
  typeKind _ s := ⟨Performed.refl s, rfl⟩
  enumMembers _ s := ⟨Performed.refl s, rfl⟩
  elementType _ s := ⟨Performed.refl s, rfl⟩
  newArray _ _ s := ⟨Performed.refl s, rfl⟩
  createDefault _ s := ⟨Performed.refl s, rfl⟩
  convert _ _ s := ⟨Performed.refl s, rfl⟩
  text _ s := ⟨Performed.refl s, rfl⟩
  constructors _ s := ⟨Performed.refl s, rfl⟩
  parameters _ s := ⟨Performed.refl s, rfl⟩
  declaringType _ s := ⟨Performed.refl s, rfl⟩
  construct text _ := keeps_say text
  construct_locked _ _ _ := rfl

end Printer

/-- The stream that the constructor leaves in the place for output stays there; that of the method does not. -/
theorem run_sights_printer :
    CodeLogs Printer.host id ∧ (Session.start ([] : List OutputStep)).locked = false ∧
    ∃ ended t u, ∃ making calling : List (Sight String), ∃ before steps,
      (run Printer.host "running" [] .none false).run (Session.start []) = (ended, t) ∧
      Outside id (Session.start []) making before u ∧
      Round Printer.host id Outcome.out Outcome.err "running" u calling steps ended t ∧
      (making ++ calling).map (fun sight => (sight.locked, sight.ports)) =
        [(false, ⟨0, 1, 2, 3⟩), (true, ⟨5, 6, 7, 8⟩)] ∧
      ended.toOption.map Outcome.out = some "running" ∧ t.written 0 = "building " ∧ t.ports = ⟨4, 1, 2, 3⟩ := by
  refine ⟨Printer.codeLogs_host, rfl, ?_⟩
  obtain ⟨ended, t, u, making, calling, before, steps, hrun, hsighted, hout, hround, -, -⟩ :=
    run_sights Printer.codeLogs_host "running" [] .none false (Session.start []) rfl
  have hsights : making ++ calling = ((run Printer.host.sighted "running" [] .none false).run
      ((Session.start []).withCalls [])).2.host.2 := by rw [hsighted]; rfl
  refine ⟨ended, t, u, making, calling, before, steps, hrun, hout, hround, ?_, ?_, ?_, ?_⟩
  · rw [hsights]
    rfl
  all_goals
    cases hrun
    rfl

/-! ### A constructor that writes -/

namespace Widget

def type : ScriptedType where
  name := "Sample.Widget"
  kind := .plainClass
  members := []
  element := ""
  created := none
  conversions := []
  conversionError := none
  constructors := [⟨[], [.write .out "building "]⟩]

def start : ScriptedMethod where
  type := "widget"
  name := "Start"
  parameters := []
  returnType := TypeName.void
  isStatic := false
  isGenericDefinition := false
  containsGenericParameters := false
  kind := .managed
  wrappers := 1
  body := [.write .out "running"]

def host : Host String ScriptedCallable ScriptedRecord :=
  ScriptedTables.host ⟨[("widget", type)], [("start", start)]⟩

end Widget

/-- The constructor finds the lock free and the streams of the process, and what it writes is not in the outcome. -/
theorem widget_sights :
    ∃ o s', ∃ sights : List (Sight ScriptedCallable),
      (run Widget.host (.method "start") [] .none false).run (Session.start {}) = (.ok o, s') ∧
      (run Widget.host.sighted (.method "start") [] .none false).run ((Session.start {}).withCalls []) =
        (.ok o, s'.withCalls sights) ∧
      sights.map (fun sight => (sight.locked, sight.ports)) =
        [(false, (Session.start ()).ports), (true, ownPorts Widget.host (Session.start {}))] ∧
      s'.written (Session.start ()).ports.out = "building " ∧ o.out = "running" :=
  ⟨_, _, _, rfl, rfl, rfl, rfl, rfl⟩

end Invocation

end CilProbe
