import CilProbe.Proofs.Invocation.Composition
import CilProbe.Proofs.Synthesis.Described

/-!
# Streams that stay open

A capture reads its streams after the action has ended.  So if the action returns and has closed one of them, the
capture fails; in all other cases it ends as the action does (`captured_cases`).  Whether streams are kept open is known
of the call of a method if it is known of what this is put together from (`ClosesNothing`, `composes_keepsOpen`).
-/

namespace CilProbe

open Synthesis (run_bind_of_ok run_bind_of_error)

variable {τ μ σ α β : Type}

/-- The stream is there, and it is not closed. -/
def Session.IsOpen (s : Session σ) (stream : Nat) : Prop := stream < s.streams.size ∧ stream ∉ s.closed

/-- The streams that a capture reads are open at first. -/
theorem Session.isOpen_redirected (console : Bool) (s : Session σ) :
    (s.redirected console).IsOpen (s.redirected console).ports.out ∧
      (s.redirected console).IsOpen (s.redirected console).ports.err := by
  unfold Session.IsOpen Session.redirected
  cases console <;> simp

namespace Action

/-- Streams that are open stay open. -/
def KeepsOpen (act : Action σ α) : Prop := ∀ s stream, s.IsOpen stream → (act.run s).2.IsOpen stream

namespace KeepsOpen

theorem pure (a : α) : KeepsOpen (Pure.pure a : Action σ α) := fun _ _ => id

theorem throw (raised : Raised) : KeepsOpen (MonadExcept.throw raised : Action σ α) := fun _ _ => id

theorem bind {act : Action σ α} {next : α → Action σ β} (h : KeepsOpen act) (hnext : ∀ a, KeepsOpen (next a)) :
    KeepsOpen (act >>= next) := by
  intro s stream hopen
  have hact := h s stream hopen
  rcases hrun : act.run s with ⟨_ | a, s'⟩ <;> rw [hrun] at hact
  · rw [run_bind_of_error hrun]
    exact hact
  · rw [run_bind_of_ok hrun]
    exact hnext a s' stream hact

theorem attempt {act : Action σ α} (h : KeepsOpen act) : KeepsOpen (Action.attempt act) := by
  intro s stream hopen
  rw [Action.session_attempt]
  exact h s stream hopen

end KeepsOpen

/-- A capture ends as the action does, but for actions that close streams and return. -/
theorem captured_cases (console : Bool) (act : Action σ α) (s : Session σ) :
    (∃ out err, ((captured console act).run s).1 =
      (act.run (s.redirected console)).1.map fun result => ⟨result, out, err⟩) ∨
    (∃ a, (act.run (s.redirected console)).1 = .ok a) ∧
      ((captured console act).run s).1 = .error (.fault .closedFile) ∧ ¬ KeepsOpen act := by
  change (∃ out err, collected (act.run (s.redirected console)).2 (s.redirected console).ports
    (act.run (s.redirected console)).1 = _) ∨ _ ∧ collected (act.run (s.redirected console)).2
    (s.redirected console).ports (act.run (s.redirected console)).1 = _ ∧ _
  rcases hended : (act.run (s.redirected console)).1 with raised | a
  · exact .inl ⟨"", "", rfl⟩
  rcases collected_ok_cases (act.run (s.redirected console)).2 (s.redirected console).ports a with
    ⟨out, err, hcollected⟩ | hcollected
  · exact .inl ⟨out, err, hcollected⟩
  · refine .inr ⟨⟨a, rfl⟩, hcollected, fun hkeeps => ?_⟩
    -- Open streams would have been read.
    obtain ⟨hout, herr⟩ := s.isOpen_redirected console
    rw [collected_of_open (hkeeps _ _ hout).2 (hkeeps _ _ herr).2] at hcollected
    cases hcollected

end Action

namespace Invocation

/-- What runs from the call of a method to the report on what it threw closes no stream that is open. -/
def ClosesNothing (h : Host τ μ σ) : Prop := AtCalls (fun _ act => act.KeepsOpen) h

theorem composes_keepsOpen : Composes fun _ (act : Action σ _) => act.KeepsOpen where
  pure := Action.KeepsOpen.pure
  bind := Action.KeepsOpen.bind
  attempt := Action.KeepsOpen.attempt

end Invocation

end CilProbe
