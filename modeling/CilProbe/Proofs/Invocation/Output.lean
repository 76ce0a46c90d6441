import CilProbe.Proofs.Invocation.Composition
import CilProbe.Proofs.Synthesis.Described

/-!
# The output of invocations

Whatever programs do to the output, they do step by step: they write to streams, they put streams in the places for
output, and they open new streams (`OutputStep`).  A host keeps a log of the steps if all that invoked code does to the
output stands in it, and if the queries for the description of methods do nothing to the output (`Logs`).

* What a stream holds is what it held before and what was written to it: `Output.written_perform`.
* A capture puts the former streams back and takes from its own streams what was written to them: `kept_captured`.
* One invocation keeps the places for output and the lock, and its outcome shows what was written to its own streams;
  and so it is for every sequence of invocations: `kept_invoke`, `history_kept`.
-/

namespace CilProbe

/-! ### Steps -/

/-- The places for output with the streams. -/
structure Output where
  ports : Ports
  streams : Array String

/-- What a program can do to the output. -/
inductive OutputStep where
  | write (stream : Nat) (text : String)
  | put (place : Place) (stream : Nat)
  | open

variable {τ μ σ α β : Type}

def Session.output (s : Session σ) : Output := ⟨s.ports, s.streams⟩

/-- The places with another stream in one of them. -/
def Ports.put (p : Ports) (stream : Nat) : Place → Ports
  | .out => { p with out := stream }
  | .err => { p with err := stream }
  | .consoleOut => { p with consoleOut := stream }
  | .consoleErr => { p with consoleErr := stream }

namespace Output

def step (o : Output) : OutputStep → Output
  | .write stream text => { o with streams := o.streams.modify stream (· ++ text) }
  | .put place stream => { o with ports := o.ports.put stream place }
  | .open => { o with streams := o.streams.push "" }

def perform (o : Output) (steps : List OutputStep) : Output := steps.foldl step o

/-- What was written to a stream. -/
def written (o : Output) (stream : Nat) : String := o.streams.getD stream ""

end Output

/-- The text that steps write to a stream. -/
def OutputStep.text (stream : Nat) : OutputStep → String
  | .write stream' text => if stream' = stream then text else ""
  | _ => ""

/-- The text that is written to a stream, one step after the other. -/
def textTo (stream : Nat) : List OutputStep → String
  | [] => ""
  | step :: steps => step.text stream ++ textTo stream steps

namespace Output

theorem perform_append (o : Output) (before after : List OutputStep) :
    o.perform (before ++ after) = (o.perform before).perform after := List.foldl_append ..

theorem size_le_step (o : Output) (step : OutputStep) : o.streams.size ≤ (o.step step).streams.size := by
  cases step <;> simp [Output.step]

theorem size_le_perform (o : Output) (steps : List OutputStep) : o.streams.size ≤ (o.perform steps).streams.size := by
  induction steps generalizing o with
  | nil => exact Nat.le_refl _
  | cons step steps ih => exact Nat.le_trans (o.size_le_step step) (ih (o.step step))

theorem written_of_lt {o : Output} {stream : Nat} (h : stream < o.streams.size) :
    o.written stream = o.streams[stream] := (Array.getElem_eq_getD "").symm

theorem written_step {o : Output} {stream : Nat} (h : stream < o.streams.size) (step : OutputStep) :
    (o.step step).written stream = o.written stream ++ step.text stream := by
  rw [written_of_lt (Nat.lt_of_lt_of_le h (o.size_le_step step)), written_of_lt h]
  cases step with
  | write stream' text =>
    rw [OutputStep.text]
    split
    · next hstream =>
      subst hstream
      exact Array.getElem_modify_self _ _
    · next hstream =>
      rw [String.append_empty]
      exact Array.getElem_modify_of_ne hstream _ _
  | put => exact String.append_empty.symm
  | «open» => exact (Array.getElem_push_lt h).trans String.append_empty.symm

/-- A stream only grows, by what is written to it. -/
theorem written_perform {o : Output} {stream : Nat} (h : stream < o.streams.size) (steps : List OutputStep) :
    (o.perform steps).written stream = o.written stream ++ textTo stream steps := by
  induction steps generalizing o with
  | nil => exact (String.append_empty).symm
  | cons step steps ih =>
    have hstep : stream < (o.step step).streams.size := Nat.lt_of_lt_of_le h (o.size_le_step step)
    calc ((o.step step).perform steps).written stream
        = (o.step step).written stream ++ textTo stream steps := ih hstep
      _ = o.written stream ++ textTo stream (step :: steps) := by
        rw [written_step h step, String.append_assoc, textTo]

end Output

namespace Invocation

open Synthesis (run_bind_of_ok run_bind_of_error)

/-! ### Logs -/

/-- From one session to the other these steps were done to the output, and they were added to the log. -/
structure Performed (log : σ → List OutputStep) (s : Session σ) (steps : List OutputStep) (t : Session σ) : Prop where
  output : t.output = s.output.perform steps
  logged : log t.host = log s.host ++ steps

/-- All that an action does to the output is added to the log. -/
def Keeps (log : σ → List OutputStep) (act : Action σ α) : Prop := ∀ s, ∃ steps, Performed log s steps (act.run s).2

/-- An action does nothing to the output and leaves the lock alone. -/
def Silent (log : σ → List OutputStep) (act : Action σ α) : Prop :=
  ∀ s, Performed log s [] (act.run s).2 ∧ (act.run s).2.locked = s.locked

/-- What invoked code does to the output, also when it is waited for or when it describes what it threw, stands in the
log; and methods are described without any output. -/
structure Logs (h : Host τ μ σ) (log : σ → List OutputStep) : Prop where
  describe m : Silent log (h.describe m)
  methodKind m : Silent log (h.methodKind m)
  invoke m receiver arguments : Keeps log (h.invoke m receiver arguments)
  isAwaitable v : Keeps log (h.isAwaitable v)
  awaitResult v : Keeps log (h.awaitResult v)
  unwrap f : Keeps log (h.unwrap f)
  report f : Keeps log (h.report f)

variable {log : σ → List OutputStep}

theorem Performed.refl (s : Session σ) : Performed log s [] s := ⟨rfl, (List.append_nil _).symm⟩

theorem Performed.trans {s t u : Session σ} {before after : List OutputStep} (h : Performed log s before t)
    (h' : Performed log t after u) : Performed log s (before ++ after) u where
  output := by rw [h'.output, h.output, Output.perform_append]
  logged := by rw [h'.logged, h.logged, List.append_assoc]

namespace Keeps

theorem pure (a : α) : Keeps log (Pure.pure a : Action σ α) := fun s => ⟨[], Performed.refl s⟩

theorem bind {act : Action σ α} {next : α → Action σ β} (h : Keeps log act) (hnext : ∀ a, Keeps log (next a)) :
    Keeps log (act >>= next) := by
  intro s
  obtain ⟨before, hbefore⟩ := h s
  rcases hact : act.run s with ⟨_ | a, s'⟩
  · rw [run_bind_of_error hact]
    rw [hact] at hbefore
    exact ⟨before, hbefore⟩
  · rw [run_bind_of_ok hact]
    rw [hact] at hbefore
    obtain ⟨after, hafter⟩ := hnext a s'
    exact ⟨before ++ after, Performed.trans hbefore hafter⟩

theorem attempt {act : Action σ α} (h : Keeps log act) : Keeps log (Action.attempt act) := by
  intro s
  rw [Action.session_attempt]
  exact h s

end Keeps

theorem composes_keeps : Composes fun _ (act : Action σ _) => Keeps log act where
  pure := Keeps.pure
  bind := Keeps.bind
  attempt := Keeps.attempt

theorem Logs.atCalls {h : Host τ μ σ} (hlog : Logs h log) : AtCalls (fun _ act => Keeps log act) h where
  invoke := hlog.invoke
  isAwaitable := hlog.isAwaitable
  awaitResult := hlog.awaitResult
  unwrap := hlog.unwrap
  report := hlog.report

theorem keeps_guarded {h : Host τ μ σ} (hlog : Logs h log) (method : μ) (m : Method) (receiver : Value)
    (arguments : List Value) : Keeps log (guarded h method m receiver arguments) :=
  composes_keeps.guarded hlog.atCalls method m receiver arguments

/-! ### Own streams -/

/-- The streams for the output of an invocation that starts in a session. -/
def ownPorts (h : Host τ μ σ) (s : Session σ) : Ports := (s.redirected h.redirectsConsole).ports

/-- The streams that are opened for it. -/
def opened (h : Host τ μ σ) (s : Session σ) : List Nat :=
  let own := ownPorts h s
  if h.redirectsConsole then [own.out, own.err, own.consoleOut, own.consoleErr] else [own.out, own.err]

/-- If the console is not redirected, its streams are there, and they hold nothing. -/
def ConsoleEmpty (h : Host τ μ σ) (s : Session σ) : Prop :=
  h.redirectsConsole = false →
    ∀ stream ∈ [s.ports.consoleOut, s.ports.consoleErr], stream < s.streams.size ∧ s.written stream = ""

variable {h : Host τ μ σ}

theorem le_of_mem_opened {s : Session σ} {stream : Nat} (hstream : stream ∈ opened h s) : s.streams.size ≤ stream := by
  unfold opened ownPorts Session.redirected at hstream
  split at hstream <;> simp_all <;> omega

private theorem fresh_empty (streams : Array String) {n : Nat} (hn : n < 4) :
    streams.size + n < (streams ++ #["", "", "", ""]).size ∧
      (streams ++ #["", "", "", ""]).getD (streams.size + n) "" = "" := by
  have hsize : streams.size + n < (streams ++ #["", "", "", ""]).size := by
    rw [Array.size_append]
    exact Nat.add_lt_add_left hn _
  refine ⟨hsize, ?_⟩
  rw [← Array.getElem_eq_getD (h := hsize), Array.getElem_append_right (Nat.le_add_right _ _)]
  simp only [Nat.add_sub_cancel_left]
  match n, hn with
  | 0, _ | 1, _ | 2, _ | 3, _ => rfl

private theorem former_empty (streams : Array String) {n : Nat} (hn : n < streams.size) (h : streams.getD n "" = "") :
    n < (streams ++ #["", "", "", ""]).size ∧ (streams ++ #["", "", "", ""]).getD n "" = "" := by
  have hsize : n < (streams ++ #["", "", "", ""]).size := by
    rw [Array.size_append]
    exact Nat.lt_of_lt_of_le hn (Nat.le_add_right _ _)
  refine ⟨hsize, ?_⟩
  rw [← Array.getElem_eq_getD (h := hsize), Array.getElem_append_left hn]
  rwa [← Array.getElem_eq_getD (h := hn)] at h

/-- Own streams are there, and hold nothing when the invocation starts. -/
theorem own_empty {s : Session σ} (hconsole : ConsoleEmpty h s) (place : Place) :
    (ownPorts h s).stream place < (s.redirected h.redirectsConsole).output.streams.size ∧
      (s.redirected h.redirectsConsole).output.written ((ownPorts h s).stream place) = "" := by
  unfold ownPorts Session.redirected
  cases hredirects : h.redirectsConsole with
  | true =>
    cases place with
    | out => exact fresh_empty s.streams (n := 0) (by decide)
    | err => exact fresh_empty s.streams (n := 1) (by decide)
    | consoleOut => exact fresh_empty s.streams (n := 2) (by decide)
    | consoleErr => exact fresh_empty s.streams (n := 3) (by decide)
  | false =>
    have hformer := hconsole hredirects
    cases place with
    | out => exact fresh_empty s.streams (n := 0) (by decide)
    | err => exact fresh_empty s.streams (n := 1) (by decide)
    | consoleOut =>
      obtain ⟨hlt, hwritten⟩ := hformer s.ports.consoleOut (.head _)
      exact former_empty s.streams hlt hwritten
    | consoleErr =>
      obtain ⟨hlt, hwritten⟩ := hformer s.ports.consoleErr (.tail _ (.head _))
      exact former_empty s.streams hlt hwritten

/-! ### What an invocation keeps -/

/-- A part of an invocation, from one session to the other, keeps the places for output; and what it shows are the steps
to its own streams, text for the process before text for the console. -/
structure Kept (h : Host τ μ σ) (log : σ → List OutputStep) (out err : α → String) (s : Session σ)
    (ended : Except Raised α) (t : Session σ) : Prop where
  ports : t.ports = s.ports
  size : s.streams.size ≤ t.streams.size
  console : ConsoleEmpty h s → ConsoleEmpty h t
  shown : ConsoleEmpty h s → ∃ steps, log t.host = log s.host ++ steps ∧ ∀ a, ended = .ok a →
    out a = textTo (ownPorts h s).out steps ++ textTo (ownPorts h s).consoleOut steps ∧
    err a = textTo (ownPorts h s).err steps ++ textTo (ownPorts h s).consoleErr steps

namespace Kept

variable {out err : α → String} {s s' t : Session σ} {ended : Except Raised α}

theorem refl (h' : ∀ a, ended = .ok a → out a = "" ∧ err a = "") : Kept h log out err s ended s where
  ports := rfl
  size := Nat.le_refl _
  console := id
  shown _ := ⟨[], (List.append_nil _).symm, h'⟩

/-- What happens before without output does not matter. -/
theorem of_silent (hs : Performed log s [] s') (h' : Kept h log out err s' ended t) : Kept h log out err s ended t := by
  have houtput : s'.output = s.output := hs.output
  have hports : s'.ports = s.ports := congrArg Output.ports houtput
  have hstreams : s'.streams = s.streams := congrArg Output.streams houtput
  have hlogged : log s'.host = log s.host := hs.logged.trans (List.append_nil _)
  have hconsole : ConsoleEmpty h s → ConsoleEmpty h s' := by
    unfold ConsoleEmpty Session.written
    rw [hports, hstreams]
    exact id
  have hown : ownPorts h s' = ownPorts h s := by
    unfold ownPorts Session.redirected
    rw [hports, hstreams]
  refine ⟨h'.ports.trans hports, hstreams ▸ h'.size, fun hs => h'.console (hconsole hs), fun hs => ?_⟩
  obtain ⟨steps, hlog, hshown⟩ := h'.shown (hconsole hs)
  rw [hown] at hshown
  exact ⟨steps, hlog.trans (by rw [hlogged]), hshown⟩

end Kept

private theorem written_clear {s : Session σ} {stream stream' : Nat} (h : stream = stream' ∨ s.written stream = "") :
    (s.clear stream').written stream = "" := by
  have hread (streams : Array String) : streams.getD stream "" = (streams[stream]?).getD "" := by simp
  unfold Session.clear Session.written
  rw [hread, Array.getElem?_modify]
  split
  · cases s.streams[stream]? <;> rfl
  · next hne =>
    rcases h with rfl | h
    · exact absurd rfl hne
    · rwa [Session.written, hread] at h

private theorem size_clear (s : Session σ) (stream : Nat) : (s.clear stream).streams.size = s.streams.size :=
  Array.size_modify ..

theorem kept_captured {act : Action σ α} (hact : Keeps log act) (s : Session σ) :
    Kept h log Action.Captured.out Action.Captured.err s ((Action.captured h.redirectsConsole act).run s).1
      ((Action.captured h.redirectsConsole act).run s).2 := by
  obtain ⟨steps, hperformed⟩ := hact (s.redirected h.redirectsConsole)
  rcases hrun : act.run (s.redirected h.redirectsConsole) with ⟨ended, t⟩
  rw [hrun] at hperformed
  have hcaptured : (Action.captured h.redirectsConsole act).run s =
      (Action.collected t (ownPorts h s) ended,
      { (t.clear (ownPorts h s).consoleOut).clear (ownPorts h s).consoleErr with ports := s.ports }) := by
    change Action.captured h.redirectsConsole act s = _
    rw [Action.captured, show act (s.redirected h.redirectsConsole) = _ from hrun]
    rfl
  have hsize : s.streams.size ≤ t.streams.size := by
    calc s.streams.size
        ≤ (s.redirected h.redirectsConsole).streams.size := by
          rw [Session.redirected, Array.size_append]
          exact Nat.le_add_right _ _
      _ ≤ ((s.redirected h.redirectsConsole).output.perform steps).streams.size :=
          (s.redirected h.redirectsConsole).output.size_le_perform steps
      _ = t.streams.size := by rw [← hperformed.output]; rfl
  rw [hcaptured]
  refine ⟨rfl, ?_, fun hconsole hredirects => ?_, fun hconsole => ⟨steps, hperformed.logged, ?_⟩⟩
  · change s.streams.size ≤ ((t.clear (ownPorts h s).consoleOut).clear (ownPorts h s).consoleErr).streams.size
    rwa [size_clear, size_clear]
  · -- The streams of the console are the former ones, and they have just been cleared.
    have hown : (ownPorts h s).consoleOut = s.ports.consoleOut ∧ (ownPorts h s).consoleErr = s.ports.consoleErr := by
      rw [ownPorts, Session.redirected, hredirects]
      exact ⟨rfl, rfl⟩
    intro stream hstream
    rw [hown.1, hown.2]
    refine ⟨?_, ?_⟩
    · change stream < ((t.clear s.ports.consoleOut).clear s.ports.consoleErr).streams.size
      rw [size_clear, size_clear]
      exact Nat.lt_of_lt_of_le (hconsole hredirects stream hstream).1 hsize
    · change ((t.clear s.ports.consoleOut).clear s.ports.consoleErr).written stream = ""
      simp only [List.mem_cons, List.not_mem_nil, or_false] at hstream
      rcases hstream with rfl | rfl
      · exact written_clear (.inr (written_clear (.inl rfl)))
      · exact written_clear (.inl rfl)
  · have hwritten (place : Place) : t.written ((ownPorts h s).stream place) =
        textTo ((ownPorts h s).stream place) steps := by
      obtain ⟨hlt, hempty⟩ := own_empty hconsole place
      change t.output.written _ = _
      rw [hperformed.output, Output.written_perform hlt, hempty, String.empty_append]
    have htexts (a b : Place) : t.written ((ownPorts h s).stream a) ++ t.written ((ownPorts h s).stream b) =
        textTo ((ownPorts h s).stream a) steps ++ textTo ((ownPorts h s).stream b) steps := by
      rw [hwritten a, hwritten b]
    intro captured hended
    obtain ⟨-, hout, herr⟩ := Action.of_collected_eq_ok hended
    exact ⟨hout.trans (htexts .out .consoleOut), herr.trans (htexts .err .consoleErr)⟩

/-- Every run of an action keeps the places for output, and shows what it wrote to its own streams. -/
def Keeping (h : Host τ μ σ) (log : σ → List OutputStep) (out err : α → String) (act : Action σ α) : Prop :=
  ∀ s, Kept h log out err s (act.run s).1 (act.run s).2

/-- Every run of an action that starts with the lock free leaves it free. -/
def Unlocked (act : Action σ α) : Prop := ∀ s, s.locked = false → (act.run s).2.locked = false

namespace Keeping

variable {out err : β → String}

theorem pure {b : β} (h' : out b = "" ∧ err b = "") : Keeping h log out err (Pure.pure b) :=
  fun _ => Kept.refl fun _ ho => by cases ho; exact h'

theorem of_silent {act : Action σ α} {next : α → Action σ β} (hact : Silent log act)
    (hnext : ∀ a, Keeping h log out err (next a)) : Keeping h log out err (act >>= next) := by
  intro s
  have hs := (hact s).1
  rcases hrun : act.run s with ⟨_ | a, s'⟩
  · rw [run_bind_of_error hrun]
    rw [hrun] at hs
    exact Kept.of_silent hs (Kept.refl nofun)
  · rw [run_bind_of_ok hrun]
    rw [hrun] at hs
    exact Kept.of_silent hs (hnext a s')

/-- What is shown may be put into another form. -/
theorem map {act : Action σ α} {out' err' : α → String} {next : α → Action σ β} (hact : Keeping h log out' err' act)
    (hnext : ∀ a, ∃ b, next a = Pure.pure b ∧ out b = out' a ∧ err b = err' a) :
    Keeping h log out err (act >>= next) := by
  intro s
  have hs := hact s
  rcases hrun : act.run s with ⟨_ | a, s'⟩
  · rw [run_bind_of_error hrun]
    rw [hrun] at hs
    refine ⟨hs.ports, hs.size, hs.console, fun hconsole => ?_⟩
    obtain ⟨steps, hlogged, -⟩ := hs.shown hconsole
    exact ⟨steps, hlogged, nofun⟩
  · obtain ⟨b, hb, hout, herr⟩ := hnext a
    rw [run_bind_of_ok hrun, hb]
    rw [hrun] at hs
    refine ⟨hs.ports, hs.size, hs.console, fun hconsole => ?_⟩
    obtain ⟨steps, hlogged, hshown⟩ := hs.shown hconsole
    refine ⟨steps, hlogged, fun b' hb' => ?_⟩
    cases hb'
    rw [hout, herr]
    exact hshown a rfl

/-- Whether the lock is held makes no difference. -/
theorem exclusively {act : Action σ β} (hact : Keeping h log out err act) :
    Keeping h log out err (Action.exclusively act) := by
  intro s
  obtain ⟨hports, hsize, hconsole, hshown⟩ := hact { s with locked := true }
  exact ⟨hports, hsize, hconsole, hshown⟩

end Keeping

namespace Unlocked

theorem pure (a : α) : Unlocked (Pure.pure a : Action σ α) := fun _ hlocked => hlocked

theorem of_silent {act : Action σ α} {next : α → Action σ β} (hact : Silent log act)
    (hnext : ∀ a, Unlocked (next a)) : Unlocked (act >>= next) := by
  intro s hlocked
  have hs := (hact s).2
  rcases hrun : act.run s with ⟨_ | a, s'⟩
  · rw [run_bind_of_error hrun]
    rw [hrun] at hs
    exact hs.trans hlocked
  · rw [run_bind_of_ok hrun]
    rw [hrun] at hs
    exact hnext a s' (hs.trans hlocked)

end Unlocked

/-! ### Invocations -/

theorem silent_validateDescribed (hlog : Logs h log) (method : μ) (m : Method) :
    Silent log (validateDescribed h method m) := by
  intro s
  rw [validateDescribed]
  split
  · exact ⟨Performed.refl s, rfl⟩
  split
  · exact ⟨Performed.refl s, rfl⟩
  · have hkind := hlog.methodKind method s
    rcases hrun : (h.methodKind method).run s with ⟨_ | kind, s'⟩
    · rw [run_bind_of_error hrun]
      rwa [hrun] at hkind
    · rw [run_bind_of_ok hrun]
      rwa [hrun] at hkind

theorem silent_isCancelled : Silent log (Action.isCancelled (σ := σ)) := fun s => ⟨Performed.refl s, rfl⟩

/-- An invocation keeps the places for output, and its outcome shows what was written to its own streams. -/
theorem keeping_invoke (hlog : Logs h log) (method : μ) (receiver : Value) (arguments : List Value)
    (cancellable : Bool) :
    Keeping h log Outcome.out Outcome.err (invoke h method receiver arguments cancellable) := by
  refine Keeping.of_silent (hlog.describe method) fun m => ?_
  refine Keeping.of_silent (silent_validateDescribed hlog method m) fun rejection? => ?_
  cases rejection? with
  | some reason => exact Keeping.pure ⟨rfl, rfl⟩
  | none =>
    refine Keeping.exclusively (Keeping.of_silent silent_isCancelled fun cancelled => ?_)
    split
    · exact Keeping.pure ⟨rfl, rfl⟩
    · have hcaptured : Keeping h log Action.Captured.out Action.Captured.err
          (Action.captured h.redirectsConsole (guarded h method m receiver arguments)) :=
        kept_captured (keeps_guarded hlog method m receiver arguments)
      refine hcaptured.map fun ended => ?_
      rcases ended with ⟨report | ⟨counts, v⟩, out, err⟩
      · exact ⟨_, rfl, rfl, rfl⟩
      · exact ⟨_, rfl, rfl, rfl⟩

theorem unlocked_invoke (hlog : Logs h log) (method : μ) (receiver : Value) (arguments : List Value)
    (cancellable : Bool) : Unlocked (invoke h method receiver arguments cancellable) := by
  refine Unlocked.of_silent (hlog.describe method) fun m => ?_
  refine Unlocked.of_silent (silent_validateDescribed hlog method m) fun rejection? => ?_
  cases rejection? with
  | some reason => exact Unlocked.pure _
  | none => exact fun s _ => Action.locked_exclusively _ s

/-! ### Sequences of invocations -/

structure Request (μ : Type) where
  method : μ
  receiver : Value
  arguments : List Value
  cancellable : Bool

/-- An invocation with the sessions around it. -/
structure Turn (σ : Type) where
  before : Session σ
  ended : Except Raised Outcome
  after : Session σ

def turn (h : Host τ μ σ) (s : Session σ) (r : Request μ) : Turn σ :=
  let run := (invoke h r.method r.receiver r.arguments r.cancellable).run s
  ⟨s, run.1, run.2⟩

/-- The invocations of methods one after the other, whether they return or not. -/
def history (h : Host τ μ σ) : Session σ → List (Request μ) → List (Turn σ)
  | _, [] => []
  | s, r :: rs => turn h s r :: history h (turn h s r).after rs

/-- A turn leaves the former streams in the places for output and the lock free.  If it ends with an outcome, this shows
what the turn wrote to its own streams, text for the process before text for the console. -/
structure Turn.Clean (h : Host τ μ σ) (log : σ → List OutputStep) (turn : Turn σ) : Prop where
  ports : turn.after.ports = turn.before.ports
  locked : turn.after.locked = false
  shown : ∃ steps, log turn.after.host = log turn.before.host ++ steps ∧ ∀ o, turn.ended = .ok o →
    o.out = textTo (ownPorts h turn.before).out steps ++ textTo (ownPorts h turn.before).consoleOut steps ∧
    o.err = textTo (ownPorts h turn.before).err steps ++ textTo (ownPorts h turn.before).consoleErr steps

/-- Every turn of a sequence of invocations is clean, and the streams that are opened for it did not exist when the
turns before it had ended. -/
theorem history_clean (hlog : Logs h log) (requests : List (Request μ)) (s : Session σ) (hlocked : s.locked = false)
    (hconsole : ConsoleEmpty h s) :
    (∀ turn ∈ history h s requests, turn.Clean h log ∧ s.streams.size ≤ turn.before.streams.size) ∧
    (history h s requests).Pairwise fun earlier later =>
      ∀ stream ∈ opened h later.before, earlier.after.streams.size ≤ stream := by
  induction requests generalizing s with
  | nil =>
    rw [history]
    exact ⟨fun _ hmem => absurd hmem List.not_mem_nil, .nil⟩
  | cons r rs ih =>
    have hkept : Kept h log Outcome.out Outcome.err s (turn h s r).ended (turn h s r).after :=
      keeping_invoke hlog r.method r.receiver r.arguments r.cancellable s
    have hfree : (turn h s r).after.locked = false :=
      unlocked_invoke hlog r.method r.receiver r.arguments r.cancellable s hlocked
    obtain ⟨hturns, hlater⟩ := ih (turn h s r).after hfree (hkept.console hconsole)
    rw [history]
    refine ⟨fun later hmem => ?_, List.pairwise_cons.2 ⟨fun later hmem stream hstream => ?_, hlater⟩⟩
    · rcases List.mem_cons.1 hmem with rfl | hmem
      · exact ⟨⟨hkept.ports, hfree, hkept.shown hconsole⟩, Nat.le_refl _⟩
      · exact ⟨(hturns later hmem).1, Nat.le_trans hkept.size (hturns later hmem).2⟩
    · exact Nat.le_trans (hturns later hmem).2 (le_of_mem_opened hstream)

/-! ### Methods that misuse the output -/

namespace Recital

/-- Does these steps and adds them to the log. -/
def perform (steps : List OutputStep) : Action (List OutputStep) Unit :=
  Action.modifySession fun s =>
    let o := s.output.perform steps
    { s with ports := o.ports, streams := o.streams, host := s.host ++ steps }

/-- A host whose methods are steps and a way to end.  Their failures are in no wrappers. -/
def host : Host Unit (List OutputStep × Except Raised Value) (List OutputStep) where
  typeName _ := return ""
  typeKind _ := return .plainClass
  enumMembers _ := return []
  elementType _ := return ()
  newArray _ _ := return .none
  createDefault _ := return .none
  convert _ _ := return .none
  constructors _ := return []
  parameters _ := return []
  construct _ _ := return .none
  declaringType _ := return ()
  describe _ := return { declaringType := "Sample.Recital", name := "Recite" }
  methodKind _ := return .managed
  invoke m _ _ := do
    perform m.1
    match m.2 with
    | .ok v => return v
    | .error raised => throw raised
  isAwaitable _ := return false
  awaitResult v := return (true, v)
  text f := return f.text
  unwrap f := return f.inner?
  report f := return f.report
  redirectsConsole := true

theorem logs_host : Logs host id where
  describe _ s := ⟨Performed.refl s, rfl⟩
  methodKind _ s := ⟨Performed.refl s, rfl⟩
  invoke m _ _ := by
    refine Keeps.bind (fun s => ⟨m.1, rfl, rfl⟩) fun _ => ?_
    rcases m with ⟨steps, raised | v⟩
    · exact fun s => ⟨[], Performed.refl s⟩
    · exact Keeps.pure v
  isAwaitable _ := Keeps.pure _
  awaitResult _ := Keeps.pure _
  unwrap _ := Keeps.pure _
  report _ := Keeps.pure _

/-- Writes, puts a new stream in the place of its own, writes to that and leaves the process. -/
def leaving : Request (List OutputStep × Except Raised Value) where
  method := ([.write 4 "shown", .open, .put .out 8, .put .consoleErr 8, .write 8 "lost"],
    .error (.exit (.systemExit "")))
  receiver := .none
  arguments := []
  cancellable := false

/-- Writes to the console, to the process and to a stream of the invocation before it. -/
def reciting : Request (List OutputStep × Except Raised Value) where
  method := ([.write 11 "console", .write 4 "late", .write 9 "process "], .ok .none)
  receiver := .none
  arguments := []
  cancellable := false

end Recital

theorem history_clean_recital :
    Logs Recital.host id ∧ ConsoleEmpty Recital.host (Session.start []) ∧
    (∀ turn ∈ history Recital.host (Session.start []) [Recital.leaving, Recital.reciting],
      turn.Clean Recital.host id) ∧
    (history Recital.host (Session.start []) [Recital.leaving, Recital.reciting]).map (·.after.ports) =
      [⟨0, 1, 2, 3⟩, ⟨0, 1, 2, 3⟩] ∧
    (history Recital.host (Session.start []) [Recital.leaving, Recital.reciting]).map
      (fun turn => turn.ended.toOption.map Outcome.out) = [none, some "process console"] := by
  have hconsole : ConsoleEmpty Recital.host (Session.start []) := nofun
  refine ⟨Recital.logs_host, hconsole, fun turn hturn => ?_, ?_, ?_⟩
  · exact ((history_clean Recital.logs_host [Recital.leaving, Recital.reciting] (Session.start []) rfl hconsole).1
      turn hturn).1
  · rfl
  · rfl

end Invocation

end CilProbe
