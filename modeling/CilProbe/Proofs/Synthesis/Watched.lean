import CilProbe.Proofs.Invocation.Preparation
import Mathlib.Logic.Function.Iterate

/-!
# Searches that are watched

A watched search does what the search for an instance does and keeps a log: it notes each instance that it is asked for
and each type of which it makes none, with the depths (`Attempt`).  The log stands beside what the host keeps, on a host
that does not look at it (`Host.withLog`).

`Search.watchedCall` is one call of the search.  It compares its depth with the bound and leaves what is one level
deeper to another search.  Enough calls in calls are the search for an instance (`alike_watchedCall`), whatever stands
below them, so that this is never reached.
-/

namespace CilProbe

variable {τ μ σ ρ α : Type}

/-- The same host with its actions changed. -/
def Host.mapActions (h : Host τ μ σ) (f : {α : Type} → Action σ α → Action ρ α) : Host τ μ ρ where
  typeName t := f (h.typeName t)
  typeKind t := f (h.typeKind t)
  enumMembers t := f (h.enumMembers t)
  elementType t := f (h.elementType t)
  newArray t length := f (h.newArray t length)
  createDefault t := f (h.createDefault t)
  convert text t := f (h.convert text t)
  constructors t := f (h.constructors t)
  parameters m := f (h.parameters m)
  construct m arguments := f (h.construct m arguments)
  declaringType m := f (h.declaringType m)
  describe m := f (h.describe m)
  methodKind m := f (h.methodKind m)
  invoke m receiver arguments := f (h.invoke m receiver arguments)
  isAwaitable v := f (h.isAwaitable v)
  awaitResult v := f (h.awaitResult v)
  text fault := f (h.text fault)
  unwrap fault := f (h.unwrap fault)
  report fault := f (h.report fault)
  redirectsConsole := h.redirectsConsole

/-- The same host, beside which a log is kept. -/
def Host.withLog (h : Host τ μ σ) (C : Type) : Host τ μ (σ × List C) :=
  h.mapActions fun act => act.recording fun _ => []

namespace Synthesis

open Invocation

/-! ### Calls that are noted -/

/-- What is noted of a search. -/
inductive Attempt (τ : Type) where
  /-- An instance of the type is asked for. -/
  | asked (type : τ) (depth : Int)
  /-- No instance of the type with this name is made. -/
  | failed (typeName : String) (depth : Int)

def Attempt.depth : Attempt τ → Int
  | asked _ depth | failed _ depth => depth

/-- The depths at which a type failed, in the order of the failures. -/
def failureDepths (typeName : String) (log : List (Attempt τ)) : List Int :=
  log.filterMap fun
    | .failed name depth => if name = typeName then some depth else none
    | .asked .. => none

/-- A search with a log. -/
abbrev WatchedSearch (τ σ α : Type) := Search (σ × List (Attempt τ)) α

namespace Search

/-- The session with one more attempt in its log. -/
def logged (attempt : Attempt τ) (s : Session (σ × List (Attempt τ))) : Session (σ × List (Attempt τ)) :=
  { s with host := (s.host.1, s.host.2 ++ [attempt]) }

def note (attempt : Attempt τ) : WatchedSearch τ σ Unit := fun (failures, s) => (.ok (), failures, logged attempt s)

/-- Notes that a search is interrupted, by whatever it is. -/
def notingFailure (typeName : String) (depth : Int) (search : WatchedSearch τ σ α) : WatchedSearch τ σ α := fun x =>
  let (ended, failures, s) := search x
  match ended with
  | .error raised => (.error raised, failures, logged (.failed typeName depth) s)
  | .ok a => (.ok a, failures, s)

/-- Makes an instance if the depth is within the bound. -/
def within (h : Host τ μ σ) (bound : Int) (build : τ → WatchedSearch τ σ Value) (depth : Int) (typeName : String)
    (type : τ) : WatchedSearch τ σ Value :=
  if bound < depth then failWith typeName (.tooDeep bound) else ofType (h.withLog _) build typeName type

/-- A call of the search; `deeper` is the search that it calls one level deeper. -/
def watchedCall (h : Host τ μ σ) (bound : Int) (deeper : Int → τ → WatchedSearch τ σ Value) (depth : Int) (type : τ) :
    WatchedSearch τ σ Value := do
  note (.asked type depth)
  unlessFailed (h.withLog _) depth type fun typeName =>
    notingFailure typeName depth (within h bound (deeper (depth + 1)) depth typeName type)

section

variable {search : WatchedSearch τ σ α} {x y : Failures × Session (σ × List (Attempt τ))}

theorem run_notingFailure_of_ok {a : α} (h : search.run x = (.ok a, y)) (typeName : String) (depth : Int) :
    (notingFailure typeName depth search).run x = (.ok a, y) := by
  change notingFailure typeName depth search x = _
  rw [notingFailure, show search x = _ from h]

theorem run_notingFailure_of_error {raised : Raised} (h : search.run x = (.error raised, y)) (typeName : String)
    (depth : Int) :
    (notingFailure typeName depth search).run x = (.error raised, y.1, logged (.failed typeName depth) y.2) := by
  change notingFailure typeName depth search x = _
  rw [notingFailure, show search x = _ from h]

end

end Search

/-! ### The log makes no difference -/

theorem preparesAlike_mapActions {E : Session σ → Session ρ → Prop} {f : {α : Type} → Action σ α → Action ρ α}
    (h : Host τ μ σ) (hf : ∀ {α : Type} (act : Action σ α), Alike E act (f act)) :
    PreparesAlike E h (h.mapActions f) where
  typeName _ := hf _
  typeKind _ := hf _
  enumMembers _ := hf _
  elementType _ := hf _
  newArray _ _ := hf _
  createDefault _ := hf _
  convert _ _ := hf _
  text _ := hf _
  parameters _ := hf _
  constructors _ := hf _
  construct _ _ := hf _
  describe _ := hf _
  declaringType _ := hf _

/-- A session and the same with a log. -/
def Logged {C : Type} (s : Session σ) (t : Session (σ × List C)) : Prop := t.withoutCalls = s

theorem preparesAlike_withLog (h : Host τ μ σ) (C : Type) : PreparesAlike Logged h (h.withLog C) :=
  preparesAlike_mapActions h fun act s t hst => by
    obtain rfl : t.withoutCalls = s := hst
    exact ⟨rfl, rfl⟩

section

variable {search : Search σ α} {watched : WatchedSearch τ σ α}

theorem alike_note (attempt : Attempt τ) (h : Alike (InSearch Logged) search watched) :
    Alike (InSearch Logged) search (Search.note attempt >>= fun _ => watched) := by
  rintro x ⟨failures, t⟩ ⟨hfailures, hlogged⟩
  exact h x (failures, Search.logged attempt t) ⟨hfailures, hlogged⟩

theorem alike_notingFailure (typeName : String) (depth : Int) (h : Alike (InSearch Logged) search watched) :
    Alike (InSearch Logged) search (Search.notingFailure typeName depth watched) := by
  intro x y hxy
  have hstep := h x y hxy
  rcases hrun : watched.run y with ⟨_ | _, z⟩ <;> rw [hrun] at hstep
  · rw [Search.run_notingFailure_of_error hrun]
    exact hstep
  · rw [Search.run_notingFailure_of_ok hrun]
    exact hstep

end

/-- With more calls in calls than there are levels, it does not matter what stands below them. -/
theorem alike_watchedCall (h : Host τ μ σ) (bound : Int) (deeper : Int → τ → WatchedSearch τ σ Value) (levels : Nat)
    {depth : Int} (hlevels : (bound + 1 - depth).toNat = levels) {calls : Nat} (hcalls : levels < calls) (type : τ) :
    Alike (InSearch Logged) (Search.build h bound levels depth type)
      ((Search.watchedCall h bound)^[calls] deeper depth type) := by
  have halike := preparesAlike_withLog h (Attempt τ)
  induction levels generalizing depth calls type with
  | zero =>
    obtain ⟨calls, rfl⟩ := Nat.exists_eq_add_one.2 hcalls
    rw [Function.iterate_succ_apply', Search.build, Search.watchedCall]
    refine alike_note _ (alike_unlessFailed halike depth type fun typeName => alike_notingFailure typeName depth ?_)
    rw [Search.within, if_pos (by omega)]
    exact alike_failWith typeName _
  | succ levels ih =>
    obtain ⟨calls, rfl⟩ := Nat.exists_eq_add_one.2 (Nat.zero_lt_of_lt hcalls)
    rw [Function.iterate_succ_apply', Search.build, Search.watchedCall]
    refine alike_note _ (alike_unlessFailed halike depth type fun typeName => alike_notingFailure typeName depth ?_)
    rw [Search.within, if_neg (by omega)]
    exact alike_ofType halike (fun t => ih (by omega) (by omega) t) typeName type

end Synthesis

end CilProbe
