import CilProbe.Invocation.Boundary

/-!
# What the call of a method is put together from

Calling a method and reporting what it throws is put together from operations of the host, by doing one thing after the
other and by catching faults.  So a property of actions that is kept by these two (`Composes`) holds of the whole if it
holds of the operations (`AtCalls`): `Composes.guarded`.
-/

namespace CilProbe.Invocation

variable {τ μ σ : Type}

/-- Actions that are put together from actions with a property have it too. -/
structure Composes (P : (α : Type) → Action σ α → Prop) : Prop where
  pure {α : Type} (a : α) : P α (Pure.pure a)
  bind {α β : Type} {act : Action σ α} {next : α → Action σ β} :
    P α act → (∀ a, P β (next a)) → P β (act >>= next)
  attempt {α : Type} {act : Action σ α} : P α act → P _ (Action.attempt act)

/-- What runs from the call of a method to the report on what it threw has a property. -/
structure AtCalls (P : (α : Type) → Action σ α → Prop) (h : Host τ μ σ) : Prop where
  invoke m receiver arguments : P _ (h.invoke m receiver arguments)
  isAwaitable v : P _ (h.isAwaitable v)
  awaitResult v : P _ (h.awaitResult v)
  unwrap f : P _ (h.unwrap f)
  report f : P _ (h.report f)

namespace Composes

variable {P : (α : Type) → Action σ α → Prop} {h : Host τ μ σ}

theorem unwrapped (hP : Composes P) (hunwrap : ∀ f, P _ (h.unwrap f)) (n : Nat) (f : Fault) :
    P _ (unwrapped h n f) := by
  induction n generalizing f with
  | zero => exact hP.pure f
  | succ n ih =>
    refine hP.bind (hunwrap f) fun inner? => ?_
    cases inner? with
    | none => exact hP.pure f
    | some inner => exact ih inner

theorem call (hP : Composes P) (hh : AtCalls P h) (method : μ) (m : Method) (receiver : Value)
    (arguments : List Value) : P _ (call h method m receiver arguments) := by
  refine hP.bind (hh.invoke method receiver arguments) fun v => ?_
  refine hP.bind (hh.isAwaitable v) fun awaitable => ?_
  cases awaitable with
  | false => exact hP.pure _
  | true => exact hh.awaitResult v

theorem guarded (hP : Composes P) (hh : AtCalls P h) (method : μ) (m : Method) (receiver : Value)
    (arguments : List Value) : P _ (guarded h method m receiver arguments) := by
  refine hP.bind (hP.attempt (hP.call hh method m receiver arguments)) fun ended => ?_
  cases ended with
  | ok result => exact hP.pure _
  | error f =>
    refine hP.bind (hP.unwrapped hh.unwrap maxWrappers f) fun original => ?_
    exact hP.bind (hh.report original) fun report => hP.pure _

end Composes

end CilProbe.Invocation
