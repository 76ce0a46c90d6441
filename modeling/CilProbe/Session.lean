import CilProbe.Fault

/-!
# Sessions

What lasts from one invocation to the next: the output streams and which of them stand in the four places that
programs write to, the lock that keeps invocations apart, the request to cancel, and whatever else a host keeps.
Programs can close the streams that they find.

An action changes a session and ends with a value or is interrupted. The main operations are `captured`, which
redirects output while an action runs and puts the former streams back however it ends, and `exclusively`, which holds
the lock meanwhile. A console that is not redirected keeps what is written to it until a capture ends and takes it.
A stream of the process has no text any more once it is closed, so that a capture whose stream was closed fails.
-/

namespace CilProbe

/-- The numbers of the streams that stand in the places for output: those of the process and those of the managed
console. -/
structure Ports where
  out : Nat
  err : Nat
  consoleOut : Nat
  consoleErr : Nat
  deriving DecidableEq, Repr

/-- The places for output. -/
inductive Place where
  | out
  | err
  | consoleOut
  | consoleErr
  deriving DecidableEq, Repr

/-- The stream in a place. -/
def Ports.stream (p : Ports) : Place → Nat
  | .out => p.out
  | .err => p.err
  | .consoleOut => p.consoleOut
  | .consoleErr => p.consoleErr

structure Session (σ : Type) where
  ports : Ports
  /-- What was written to each stream, by the number of the stream. -/
  streams : Array String
  /-- The numbers of the streams that were closed. -/
  closed : List Nat
  locked : Bool
  cancelled : Bool
  /-- What the host remembers. -/
  host : σ
  deriving Repr

/-- Something that happens in a session. -/
abbrev Action (σ α : Type) := ExceptT Raised (StateM (Session σ)) α

namespace Session

variable {σ α : Type}

/-- A session in which nothing has happened, with a stream in each place. -/
def start (host : σ) : Session σ where
  ports := ⟨0, 1, 2, 3⟩
  streams := #["", "", "", ""]
  closed := []
  locked := false
  cancelled := false
  host := host

/-- What was written to a stream. -/
def written (s : Session σ) (stream : Nat) : String := s.streams.getD stream ""

/-- What was written to a stream that is not closed. -/
def read (s : Session σ) (stream : Nat) : Except Raised String :=
  if stream ∈ s.closed then .error (.fault .closedFile) else .ok (s.written stream)

/-- Appends text to a stream. -/
def write (s : Session σ) (stream : Nat) (text : String) : Session σ :=
  { s with streams := s.streams.modify stream (· ++ text) }

/-- Takes what was written to a stream away. -/
def clear (s : Session σ) (stream : Nat) : Session σ :=
  { s with streams := s.streams.modify stream fun _ => "" }

/-- New streams in the places for output, none of them closed; those of the console stay if it is not redirected. -/
def redirected (console : Bool) (s : Session σ) : Session σ :=
  let n := s.streams.size
  let p := s.ports
  { s with
    ports := if console then ⟨n, n + 1, n + 2, n + 3⟩ else ⟨n, n + 1, p.consoleOut, p.consoleErr⟩
    streams := s.streams ++ #["", "", "", ""]
    closed := s.closed.filter (· < n) }

end Session

namespace Action

variable {σ α : Type}

def fail (f : Fault) : Action σ α := throw (.fault f)

def modifySession (f : Session σ → Session σ) : Action σ Unit := fun s => (.ok (), f s)

/-- Writes to the stream in a place. It is a failure if that is closed. -/
def write (place : Place) (text : String) : Action σ Unit := fun s =>
  if s.ports.stream place ∈ s.closed then (.error (.fault .closedFile), s)
  else (.ok (), s.write (s.ports.stream place) text)

/-- Closes the stream in a place. -/
def close (place : Place) : Action σ Unit :=
  modifySession fun s => { s with closed := s.ports.stream place :: s.closed }

/-- Asks for cancellation, or takes the request back. -/
def setCancelled (cancelled : Bool) : Action σ Unit := modifySession fun s => { s with cancelled }

/-- Changes what the host remembers. -/
def remember (f : σ → σ) : Action σ Unit := modifySession fun s => { s with host := f s.host }

def isCancelled : Action σ Bool := fun s => (.ok s.cancelled, s)

/-- Catches faults, but no exits. -/
def attempt (act : Action σ α) : Action σ (Except Fault α) := fun s =>
  match act s with
  | (.ok a, t) => (.ok (.ok a), t)
  | (.error (.fault f), t) => (.ok (.error f), t)
  | (.error (.exit e), t) => (.error (.exit e), t)

/-- Runs an action while holding the lock. -/
def exclusively (act : Action σ α) : Action σ α := fun s =>
  let (ended, t) := act { s with locked := true }
  (ended, { t with locked := false })

/-- What an action wrote: the text for the process comes before the text for the console. -/
structure Captured (α : Type) where
  result : α
  out : String
  err : String

/-- What an action wrote to the streams in these places. Only those of the process have to be open for that. -/
def collected (t : Session σ) (here : Ports) (ended : Except Raised α) : Except Raised (Captured α) := do
  let result ← ended
  let out ← t.read here.out
  let err ← t.read here.err
  return ⟨result, out ++ t.written here.consoleOut, err ++ t.written here.consoleErr⟩

section

variable {t : Session σ} {here : Ports} {ended : Except Raised α}

/-- What is collected is what was written, and the action ended with a result. -/
theorem of_collected_eq_ok {c : Captured α} (h : collected t here ended = .ok c) : ended = .ok c.result ∧
    c.out = t.written here.out ++ t.written here.consoleOut ∧
    c.err = t.written here.err ++ t.written here.consoleErr := by
  rcases ended with raised | a
  · cases h
  simp only [collected, Session.read] at h
  split at h
  · cases h
  split at h
  · cases h
  cases h
  exact ⟨rfl, rfl, rfl⟩

/-- If the streams of the process are open, what an action wrote is collected however it ended. -/
theorem collected_of_open (hout : here.out ∉ t.closed) (herr : here.err ∉ t.closed) (ended : Except Raised α) :
    collected t here ended = ended.map fun result =>
      ⟨result, t.written here.out ++ t.written here.consoleOut, t.written here.err ++ t.written here.consoleErr⟩ := by
  rcases ended with raised | a
  · rfl
  · simp only [collected, Session.read, if_neg hout, if_neg herr]
    rfl

/-- Nothing but a closed stream keeps a result from being collected. -/
theorem collected_ok_cases (t : Session σ) (here : Ports) (a : α) :
    (∃ out err, collected t here (.ok a) = .ok ⟨a, out, err⟩) ∨
      collected t here (.ok a) = .error (.fault .closedFile) := by
  simp only [collected, Session.read]
  split
  · exact .inr rfl
  split
  · exact .inr rfl
  · exact .inl ⟨_, _, rfl⟩

end

/-- Runs an action with new streams in the places for output, then puts the former ones back. -/
def captured (console : Bool) (act : Action σ α) : Action σ (Captured α) := fun s =>
  let inside := s.redirected console
  let (ended, t) := act inside
  let here := inside.ports
  (collected t here ended,
    { (t.clear here.consoleOut).clear here.consoleErr with ports := s.ports })

@[simp] theorem ports_captured (console : Bool) (act : Action σ α) (s : Session σ) :
    ((captured console act).run s).2.ports = s.ports := rfl

@[simp] theorem locked_exclusively (act : Action σ α) (s : Session σ) :
    ((exclusively act).run s).2.locked = false := rfl

/-- What an action does to a session does not depend on whether its faults are caught. -/
@[simp] theorem session_attempt (act : Action σ α) (s : Session σ) :
    ((attempt act).run s).2 = (act.run s).2 := by
  simp only [attempt, ExceptT.run]
  rcases act s with ⟨_ | _, t⟩
  · rename_i raised
    cases raised <;> rfl
  · rfl

theorem run_attempt_of_ok {act : Action σ α} {a : α} {s s' : Session σ} (h : act.run s = (.ok a, s')) :
    (attempt act).run s = (.ok (.ok a), s') := by
  change attempt act s = _
  rw [attempt, show act s = _ from h]

theorem run_attempt_of_fault {act : Action σ α} {f : Fault} {s s' : Session σ}
    (h : act.run s = (.error (.fault f), s')) : (attempt act).run s = (.ok (.error f), s') := by
  change attempt act s = _
  rw [attempt, show act s = _ from h]

end Action

end CilProbe
