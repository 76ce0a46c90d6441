import CilProbe.Proofs.Invocation.Recorded

/-!
# Computations that are alike

Two computations on states of different kinds match if they end in the same way from related states; how they end and
the states that they leave are related again (`Matches`).  They are alike if it is the same relation between states all
along (`Alike`).  This is carried along the ways in which actions and searches are put together.  So a pipeline does the
same on two hosts if their operations are alike, whatever the states have to do with each other.
-/

namespace CilProbe.Invocation

open Synthesis (Always run_bind_of_ok run_bind_of_error Search Failures)

variable {S T σ ρ α β : Type}

/-- From states that are related by `E` the computations end in the same way, and `Q` relates this and the states that
are left. -/
def Matches (E : S → T → Prop) (Q : Except Raised α → S → T → Prop) (act : ExceptT Raised (StateM S) α)
    (act' : ExceptT Raised (StateM T) α) : Prop :=
  ∀ s t, E s t → (act.run s).1 = (act'.run t).1 ∧ Q (act.run s).1 (act.run s).2 (act'.run t).2

/-- The computations end in the same way from related states, and leave related states. -/
abbrev Alike (E : S → T → Prop) (act : ExceptT Raised (StateM S) α) (act' : ExceptT Raised (StateM T) α) : Prop :=
  Matches E (fun _ => E) act act'

namespace Matches

variable {E : S → T → Prop} {Q : Except Raised α → S → T → Prop} {R : Except Raised β → S → T → Prop}
  {act : ExceptT Raised (StateM S) α} {act' : ExceptT Raised (StateM T) α}

theorem pure {a : α} (h : ∀ s t, E s t → Q (.ok a) s t) : Matches E Q (Pure.pure a) (Pure.pure a) :=
  fun s t hst => ⟨rfl, h s t hst⟩

theorem throw {raised : Raised} (h : ∀ s t, E s t → Q (.error raised) s t) :
    Matches E Q (MonadExcept.throw raised) (MonadExcept.throw raised) :=
  fun s t hst => ⟨rfl, h s t hst⟩

/-- After an error nothing more is done. -/
theorem bind {next : α → ExceptT Raised (StateM S) β} {next' : α → ExceptT Raised (StateM T) β}
    (h : Matches E Q act act') (herror : ∀ raised s t, Q (.error raised) s t → R (.error raised) s t)
    (hnext : ∀ a, Matches (Q (.ok a)) R (next a) (next' a)) : Matches E R (act >>= next) (act' >>= next') := by
  intro s t hst
  obtain ⟨hended, hQ⟩ := h s t hst
  rcases hact : act.run s with ⟨raised | a, s'⟩ <;> rcases hact' : act'.run t with ⟨raised' | a', t'⟩ <;>
    rw [hact, hact'] at hended hQ <;> cases hended
  · rw [run_bind_of_error hact, run_bind_of_error hact']
    exact ⟨rfl, herror raised s' t' hQ⟩
  · rw [run_bind_of_ok hact, run_bind_of_ok hact']
    exact hnext a s' t' hQ

/-- A change of how computations end, and of nothing else. -/
theorem change {f : Except Raised α → Except Raised β} {changed : ExceptT Raised (StateM S) β}
    {changed' : ExceptT Raised (StateM T) β} (h : Matches E Q act act')
    (hact : ∀ s, changed.run s = (f (act.run s).1, (act.run s).2))
    (hact' : ∀ t, changed'.run t = (f (act'.run t).1, (act'.run t).2))
    (hQ : ∀ ended s t, Q ended s t → R (f ended) s t) : Matches E R changed changed' := by
  intro s t hst
  obtain ⟨hended, hQst⟩ := h s t hst
  rw [hact, hact', ← hended]
  exact ⟨rfl, hQ _ _ _ hQst⟩

end Matches

namespace Alike

variable {E : S → T → Prop} {act : ExceptT Raised (StateM S) α} {act' : ExceptT Raised (StateM T) α}
  {next : α → ExceptT Raised (StateM S) β} {next' : α → ExceptT Raised (StateM T) β}

theorem pure (a : α) : Alike E (Pure.pure a) (Pure.pure a) := Matches.pure fun _ _ => id

theorem throw (raised : Raised) :
    Alike E (MonadExcept.throw raised : ExceptT Raised (StateM S) α) (MonadExcept.throw raised) :=
  Matches.throw fun _ _ => id

theorem bind (h : Alike E act act') (hnext : ∀ a, Alike E (next a) (next' a)) :
    Alike E (act >>= next) (act' >>= next') := Matches.bind h (fun _ _ _ => id) hnext

/-- Only what is done with a result that is always the same matters. -/
theorem bind_always {act : Action σ α} {act' : Action ρ α} {next : α → Action σ β} {next' : α → Action ρ β} {a : α}
    {E : Session σ → Session ρ → Prop} (h : Alike E act act') (hact : Always act (.ok a))
    (hnext : Alike E (next a) (next' a)) : Alike E (act >>= next) (act' >>= next') := by
  intro s t hst
  obtain ⟨hended, hE⟩ := h s t hst
  obtain ⟨s', hrun⟩ := hact s
  rcases hrun' : act'.run t with ⟨ended, t'⟩
  rw [hrun, hrun'] at hended hE
  obtain rfl : Except.ok a = ended := hended
  rw [run_bind_of_ok hrun, run_bind_of_ok hrun']
  exact hnext s' t' hE

end Alike

/-! ### Actions and searches -/

/-- States of searches with the same failures behind them, in related sessions. -/
def InSearch (E : Session σ → Session ρ → Prop) (x : Failures × Session σ) (y : Failures × Session ρ) : Prop :=
  x.1 = y.1 ∧ E x.2 y.2

namespace Alike

variable {E : Session σ → Session ρ → Prop}

theorem attempt {act : Action σ α} {act' : Action ρ α} (h : Alike E act act') :
    Alike E (Action.attempt act) (Action.attempt act') :=
  Matches.change h (run_attempt act) (run_attempt act') fun _ _ _ => id

theorem isCancelled (h : ∀ s t, E s t → s.cancelled = t.cancelled) : Alike E Action.isCancelled Action.isCancelled :=
  fun s t hst => ⟨congrArg Except.ok (h s t hst), hst⟩

theorem searchAttempt {search : Search σ α} {search' : Search ρ α} (h : Alike (InSearch E) search search') :
    Alike (InSearch E) (Search.attempt search) (Search.attempt search') :=
  Matches.change h (run_searchAttempt search) (run_searchAttempt search') fun _ _ _ => id

theorem lift {act : Action σ α} {act' : Action ρ α} (h : Alike E act act') :
    Alike (InSearch E) (Search.lift act) (Search.lift act') := by
  rintro ⟨failures, s⟩ ⟨failures', t⟩ ⟨hfailures, hst⟩
  obtain ⟨hended, hE⟩ := h s t hst
  exact ⟨hended, hfailures, hE⟩

theorem failureLevel? (typeName : String) :
    Alike (InSearch E) (Search.failureLevel? typeName) (Search.failureLevel? typeName) := by
  rintro ⟨failures, s⟩ ⟨failures', t⟩ ⟨hfailures, hst⟩
  obtain rfl : failures = failures' := hfailures
  exact ⟨rfl, rfl, hst⟩

end Alike

end CilProbe.Invocation
