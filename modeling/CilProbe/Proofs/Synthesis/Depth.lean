import CilProbe.Proofs.Synthesis.Watched

/-!
# How deep a search goes

The search for an instance may be led in circles by the constructors.  Still it goes no deeper than one level below the
bound; and if the texts of failures can be taken, a type that fails again fails at a smaller depth than before
(`Bounded`).  Only the queries about types and constructors have to be answered, in the same way each time
(`Reflective`); what the constructors do is their affair.

Two things carry this.  The memory of the search holds the last depth at which a type failed (`Booked`), and a call
notes nothing above its own depth (`Stays`).  So when a call fails, the failures of its type that came before the call
were deeper, for otherwise it would have been refused; and those that came during the call were deeper because they
belong to other calls.  The memory is told of instantiation errors only.  If the text of a failure cannot be taken,
the search ends with a failure of another kind, and then a type may fail again where it did before: `fails_again`.

* One call: `grows_watchedCall`, `stays_watchedCall`.
* The whole search, by induction on the number of levels: `stays_calls`, `grows_calls`, `instanceOf_bounded`.
-/

namespace CilProbe.Synthesis

open Invocation

variable {τ μ σ α β : Type}

/-! ### Logs -/

abbrev WatchedState (τ σ : Type) := Failures × Session (σ × List (Attempt τ))

def WatchedState.log (x : WatchedState τ σ) : List (Attempt τ) := x.2.host.2

theorem failureDepths_append (typeName : String) (log added : List (Attempt τ)) :
    failureDepths typeName (log ++ added) = failureDepths typeName log ++ failureDepths typeName added :=
  List.filterMap_append

theorem mem_failureDepths {typeName : String} {log : List (Attempt τ)} {depth : Int} :
    depth ∈ failureDepths typeName log ↔ .failed typeName depth ∈ log := by
  rw [failureDepths, List.mem_filterMap]
  constructor
  · rintro ⟨attempt, hmem, hdepth⟩
    cases attempt with
    | asked type depth => contradiction
    | failed name depth' =>
      obtain ⟨rfl, rfl⟩ : name = typeName ∧ depth' = depth := by simpa using hdepth
      exact hmem
  · exact fun hmem => ⟨_, hmem, by simp⟩

/-- Each type fails at smaller and smaller depths. -/
def Decreasing (log : List (Attempt τ)) : Prop := ∀ typeName, (failureDepths typeName log).Pairwise (· > ·)

/-- From the log before to the log after, attempts were added, none above one depth or below another. -/
def Extends (low high : Int) (before after : List (Attempt τ)) : Prop :=
  ∃ added, after = before ++ added ∧ ∀ attempt ∈ added, low ≤ attempt.depth ∧ attempt.depth ≤ high

namespace Extends

variable {low high : Int} {before between after : List (Attempt τ)}

theorem refl (log : List (Attempt τ)) : Extends low high log log := ⟨[], by simp, by simp⟩

theorem trans (h : Extends low high before between) (h' : Extends low high between after) :
    Extends low high before after := by
  obtain ⟨added, rfl, hadded⟩ := h
  obtain ⟨added', rfl, hadded'⟩ := h'
  refine ⟨added ++ added', List.append_assoc .., fun attempt hmem => ?_⟩
  exact (List.mem_append.1 hmem).elim (hadded attempt) (hadded' attempt)

theorem mono {low' : Int} (hlow : low' ≤ low) (h : Extends low high before after) : Extends low' high before after := by
  obtain ⟨added, hafter, hadded⟩ := h
  exact ⟨added, hafter, fun attempt hmem => ⟨hlow.trans (hadded attempt hmem).1, (hadded attempt hmem).2⟩⟩

theorem snoc {attempt : Attempt τ} (h : Extends low high before after) (hlow : low ≤ attempt.depth)
    (hhigh : attempt.depth ≤ high) : Extends low high before (after ++ [attempt]) :=
  h.trans ⟨[attempt], rfl, by simpa using ⟨hlow, hhigh⟩⟩

end Extends

/-- A failure above all failures of the type before it. -/
theorem Decreasing.snoc_failed {log : List (Attempt τ)} (h : Decreasing log) {typeName : String} {depth : Int}
    (hdepth : ∀ depth' ∈ failureDepths typeName log, depth < depth') :
    Decreasing (log ++ [.failed typeName depth]) := by
  intro name
  rw [failureDepths_append, List.pairwise_append]
  refine ⟨h name, ?_, ?_⟩
  · by_cases hname : typeName = name <;> simp [failureDepths, hname]
  · intro depth' hmem depth'' hmem''
    obtain ⟨rfl, rfl⟩ : typeName = name ∧ depth'' = depth := by
      simpa [mem_failureDepths, eq_comm] using hmem''
    exact hdepth depth' hmem

/-! ### The memory and the log -/

/-- Types fail at smaller and smaller depths, and of each type the last depth is remembered. -/
structure Booked (failures : Failures) (log : List (Attempt τ)) : Prop where
  decreasing : Decreasing log
  remembered : ∀ typeName, failures.lookup typeName = (failureDepths typeName log).getLast?

theorem Booked.nil : Booked [] ([] : List (Attempt τ)) := ⟨fun _ => List.Pairwise.nil, fun _ => rfl⟩

/-- Above the remembered depth a type has not failed. -/
theorem Booked.lt_of_mem {failures : Failures} {log : List (Attempt τ)} (h : Booked failures log) {typeName : String}
    {depth : Int} (hdepth : ∀ level, failures.lookup typeName = some level → depth < level) :
    ∀ depth' ∈ failureDepths typeName log, depth < depth' := by
  intro depth' hmem
  have hdecreasing := h.decreasing typeName
  have hremembered := h.remembered typeName
  rcases List.eq_nil_or_concat (failureDepths typeName log) with hnil | ⟨depths, last, hconcat⟩
  · rw [hnil] at hmem
    contradiction
  · rw [hconcat, List.concat_eq_append] at hmem hdecreasing hremembered
    have hlast : depth < last := hdepth last (by simpa using hremembered)
    rcases List.mem_append.1 hmem with hmem | hmem
    · have hgt : depth' > last := (List.pairwise_append.1 hdecreasing).2.2 depth' hmem last (by simp)
      omega
    · obtain rfl : depth' = last := by simpa using hmem
      exact hlast

/-- A failure above all failures of the type before it is remembered. -/
theorem Booked.noted {failures : Failures} {log : List (Attempt τ)} (h : Booked failures log) {typeName : String}
    {depth : Int} (hdepth : ∀ depth' ∈ failureDepths typeName log, depth < depth') (e : InstantiationError) :
    Booked (noted typeName depth failures (.error (.fault (.instantiation e)) : Except Raised Value))
      (log ++ [.failed typeName depth]) := by
  refine ⟨h.decreasing.snoc_failed hdepth, fun name => ?_⟩
  rw [failureDepths_append, Invocation.noted, List.lookup_cons]
  by_cases hname : name = typeName
  · subst hname
    have hlast : failureDepths name [Attempt.failed (τ := τ) name depth] = [depth] := by simp [failureDepths]
    rw [hlast, beq_self_eq_true, List.getLast?_concat]
    cases hlookup : failures.lookup name with
    | none => rfl
    | some level =>
      have hmem := List.mem_of_getLast? ((h.remembered name).symm.trans hlookup)
      simp [Int.min_eq_left (hdepth level hmem).le]
  · have hnone : failureDepths name [Attempt.failed (τ := τ) typeName depth] = [] := by
      simp [failureDepths, Ne.symm hname]
    rw [hnone, List.append_nil, beq_false_of_ne hname]
    exact h.remembered name

theorem Booked.asked {failures : Failures} {log : List (Attempt τ)} (h : Booked failures log) (type : τ) (depth : Int) :
    Booked failures (log ++ [.asked type depth]) := by
  have hnone (typeName : String) :
      failureDepths typeName (log ++ [.asked type depth]) = failureDepths typeName log := by
    rw [failureDepths_append]
    exact List.append_nil _
  exact ⟨fun typeName => (hnone typeName).symm ▸ h.decreasing typeName,
    fun typeName => (hnone typeName).symm ▸ h.remembered typeName⟩

/-- What becomes of the log: attempts were added between these depths only.  If texts can be taken and the memory is
right before, types still fail at smaller and smaller depths. -/
structure Grows (legible : Prop) (low high : Int) (x : WatchedState τ σ) (after : List (Attempt τ)) : Prop where
  extended : Extends low high x.log after
  decreasing : legible → Booked x.1 x.log → Decreasing after

/-- What becomes of a step: if texts can be taken, the memory stays right, unless the process is left, and faults are of
this kind. -/
structure Keeps (legible : Prop) (low high : Int) (refusal : Fault → Prop) (x : WatchedState τ σ)
    (ended : Except Raised α) (y : WatchedState τ σ) : Prop extends Grows legible low high x y.log where
  booked : legible → Booked x.1 x.log → (∀ e, ended ≠ .error (.exit e)) → Booked y.1 y.log
  refused : legible → ∀ f, ended = .error (.fault f) → refusal f

def Stays (legible : Prop) (low high : Int) (refusal : Fault → Prop) (act : WatchedSearch τ σ α) : Prop :=
  ∀ x : WatchedState τ σ, Keeps legible low high refusal x (act.run x).1 (act.run x).2

/-- The log is left as it is. -/
def Silent {C : Type} (act : Action (σ × List C) α) : Prop := ∀ s, (act.run s).2.host.2 = s.host.2

/-- While something deeper was done, a type has not failed at its own depth or above. -/
theorem Keeps.lt_of_failed {legible : Prop} {depth high : Int} {refusal : Fault → Prop} {ended : Except Raised α}
    {x y : WatchedState τ σ} {typeName : String} (h : Keeps legible (depth + 1) high refusal x ended y)
    (hx : Booked x.1 x.log) (hdepth : ∀ level, x.1.lookup typeName = some level → depth < level) :
    ∀ depth' ∈ failureDepths typeName y.log, depth < depth' := by
  obtain ⟨added, hlog, hadded⟩ := h.extended
  intro depth' hmem
  rw [hlog, failureDepths_append] at hmem
  rcases List.mem_append.1 hmem with hmem | hmem
  · exact hx.lt_of_mem hdepth depth' hmem
  · exact Int.add_one_le_iff.1 (hadded _ (mem_failureDepths.1 hmem)).1

theorem silent_recording (C : Type) (act : Action σ α) : Silent (act.recording fun _ => ([] : List C)) :=
  fun _ => List.append_nil _

/-- What always has the same answer has it also beside a log. -/
theorem run_recording_of_always {C : Type} {act : Action σ α} {ended : Except Raised α} (hact : Always act ended)
    (s : Session (σ × List C)) :
    ∃ s' : Session σ, (act.recording fun _ => []).run s = (ended, s'.withCalls s.host.2) := by
  obtain ⟨s', hrun⟩ := hact s.withoutCalls
  refine ⟨s', ?_⟩
  change Action.recording _ act s = _
  rw [Action.recording, show act s.withoutCalls = _ from hrun]
  exact congrArg _ (congrArg s'.withCalls (List.append_nil _))

namespace Stays

variable {legible : Prop} {low high : Int} {refusal refusal' : Fault → Prop} {act : WatchedSearch τ σ α}
  {next : α → WatchedSearch τ σ β}

theorem pure (a : α) : Stays legible low high refusal (Pure.pure a : WatchedSearch τ σ α) :=
  fun _ => ⟨⟨.refl _, fun _ hx => hx.decreasing⟩, fun _ hx _ => hx, nofun⟩

theorem failWith (typeName : String) (reason : InstantiationReason) :
    Stays legible low high IsInstantiation (Search.failWith typeName reason : WatchedSearch τ σ α) := by
  refine fun _ => ⟨⟨.refl _, fun _ hx => hx.decreasing⟩, fun _ hx _ => hx, fun _ f hf => ?_⟩
  cases hf
  exact ⟨_, rfl⟩

theorem mono (h : Stays legible low high refusal act) (hrefusal : ∀ f, refusal f → refusal' f) :
    Stays legible low high refusal' act :=
  fun x => ⟨(h x).toGrows, (h x).booked, fun hlegible f hf => hrefusal f ((h x).refused hlegible f hf)⟩

theorem bind (h : Stays legible low high refusal act) (hnext : ∀ a, Stays legible low high refusal (next a)) :
    Stays legible low high refusal (act >>= next) := by
  intro x
  obtain ⟨⟨hextended, hdecreasing⟩, hbooked, hrefused⟩ := h x
  rcases hact : act.run x with ⟨raised | a, y⟩ <;> rw [hact] at hextended hdecreasing hbooked hrefused
  · rw [run_bind_of_error hact]
    refine ⟨⟨hextended, hdecreasing⟩, fun hlegible hx hexit => ?_, fun hlegible f hf => ?_⟩
    · refine hbooked hlegible hx fun e he => ?_
      cases he
      exact hexit e rfl
    · cases hf
      exact hrefused hlegible f rfl
  · rw [run_bind_of_ok hact]
    obtain ⟨⟨hextended', hdecreasing'⟩, hbooked', hrefused'⟩ := hnext a y
    have hy (hlegible : legible) (hx : Booked x.1 x.log) : Booked y.1 (WatchedState.log y) := hbooked hlegible hx nofun
    exact ⟨⟨hextended.trans hextended', fun hlegible hx => hdecreasing' hlegible (hy hlegible hx)⟩,
      fun hlegible hx => hbooked' hlegible (hy hlegible hx), hrefused'⟩

/-- Catching faults leaves only exits. -/
theorem attempt (h : Stays legible low high refusal act) : Stays legible low high refusal' (Search.attempt act) := by
  intro x
  obtain ⟨hgrows, hbooked, -⟩ := h x
  rw [run_searchAttempt]
  rcases hended : (act.run x).1 with (f | e) | a
  · exact ⟨hgrows, fun hlegible hx _ => hbooked hlegible hx (by rw [hended]; exact nofun), nofun⟩
  · exact ⟨hgrows, fun _ _ hexit => absurd rfl (hexit e), nofun⟩
  · exact ⟨hgrows, fun hlegible hx _ => hbooked hlegible hx (by rw [hended]; exact nofun), nofun⟩

theorem lift {act : Action (σ × List (Attempt τ)) α} (hact : Silent act) :
    Stays legible low high (fun _ => True) (Search.lift act) := by
  rintro ⟨failures, s⟩
  have hlog : WatchedState.log (failures, (act.run s).2) = WatchedState.log (failures, s) := hact s
  change Keeps legible low high _ (failures, s) (act.run s).1 (failures, (act.run s).2)
  refine ⟨⟨?_, fun _ hx => ?_⟩, fun _ hx _ => ?_, fun _ _ _ => trivial⟩ <;> rw [hlog]
  · exact .refl _
  · exact hx.decreasing
  · exact hx

/-- What cannot fail if texts can be taken does not add a kind of fault. -/
theorem lift_returns {act : Action (σ × List (Attempt τ)) α} (hact : Silent act) (hreturns : legible → Returns act) :
    Stays legible low high refusal (Search.lift act) := by
  intro x
  have hlift : Stays legible low high (fun _ => True) (Search.lift act) := lift hact
  obtain ⟨hgrows, hbooked, -⟩ := hlift x
  refine ⟨hgrows, hbooked, fun hlegible f hf => ?_⟩
  obtain ⟨a, ha⟩ := hreturns hlegible x.2
  cases ha.symm.trans hf

/-- What always has the same answer cannot fail. -/
theorem query {act : Action σ α} {a : α} (ha : Always act (.ok a)) (hnext : Stays legible low high refusal (next a)) :
    Stays legible low high refusal (Search.lift (act.recording fun _ => []) >>= next) := by
  rintro ⟨failures, s⟩
  obtain ⟨s', hrun⟩ := run_recording_of_always ha s
  rw [run_bind_of_ok (Search.run_lift hrun failures)]
  obtain ⟨⟨hextended, hdecreasing⟩, hbooked, hrefused⟩ := hnext (failures, s'.withCalls s.host.2)
  exact ⟨⟨hextended, hdecreasing⟩, hbooked, hrefused⟩

end Stays

/-! ### Hosts that answer queries -/

/-- Queries about types and constructors are always answered in the same way. -/
structure Reflective (h : Host τ μ σ) : Prop where
  typeName type : ∃ name, Always (h.typeName type) (.ok name)
  typeKind type : ∃ kind, Always (h.typeKind type) (.ok kind)
  constructors type : ∃ constructors, Always (h.constructors type) (.ok constructors)
  parameters constructor : ∃ parameters, Always (h.parameters constructor) (.ok parameters)

theorem silent_defaultOf (h : Host τ μ σ) (C : Type) (type : τ) : Silent (defaultOf (h.withLog C) type) := by
  intro s
  have halike : PreparesAlike (fun s' t => t = s'.withCalls s.host.2) h (h.withLog C) :=
    preparesAlike_mapActions h fun act s' t hst => by
      subst hst
      exact ⟨rfl, congrArg (Session.withCalls _) (List.append_nil _)⟩
  have hdefault := (alike_defaultOf halike.toArgumentsAlike type s.withoutCalls s rfl).2
  rw [hdefault]
  rfl

/-! ### A constructor after another -/

section

variable {h : Host τ μ σ} {low high : Int} {build : τ → WatchedSearch τ σ Value}

/-- The text of a failure is taken. -/
theorem stays_text (f : Fault) {next : String → WatchedSearch τ σ Value} {refusal : Fault → Prop}
    (hnext : ∀ text, Stays (Legible h) low high refusal (next text)) :
    Stays (Legible h) low high refusal (Search.lift ((h.withLog _).text f) >>= next) :=
  (Stays.lift_returns (silent_recording _ _) fun hlegible s => hlegible f s.withoutCalls).bind hnext

variable (hh : Reflective h)
  (hbuild : ∀ t kind, Always (h.typeKind t) (.ok kind) → kind.hasDefault = false →
    Stays (Legible h) low high IsInstantiation (build t))
include hh hbuild

theorem stays_argumentsFor (ps : List (Parameter τ)) :
    Stays (Legible h) low high (fun _ => True) (Search.argumentsFor (h.withLog _) build ps) := by
  induction ps with
  | nil => exact Stays.pure []
  | cons p ps ih =>
    have hrest (v : Value) : Stays (Legible h) low high (fun _ => True)
        (Search.argumentsFor (h.withLog _) build ps >>= fun vs => pure (v :: vs)) :=
      ih.bind fun vs => Stays.pure (v :: vs)
    obtain ⟨kind, hkind⟩ := hh.typeKind p.type
    rw [Search.argumentsFor]
    refine Stays.query hkind ?_
    split
    · exact (Stays.lift (silent_defaultOf h _ p.type)).bind hrest
    · next hdefault =>
      have hstays := hbuild p.type kind hkind (Bool.eq_false_iff.2 hdefault)
      exact (hstays.mono fun _ _ => trivial).bind hrest

theorem stays_firstOf (typeName : String) (last : Option Fault) (constructors : List (μ × List (Parameter τ))) :
    Stays (Legible h) low high IsInstantiation (Search.firstOf (h.withLog _) build typeName last constructors) := by
  induction constructors generalizing last with
  | nil =>
    cases last with
    | none => exact Stays.failWith typeName _
    | some last => exact stays_text last fun _ => Stays.failWith typeName _
  | cons c constructors ih =>
    have hconstruct : Stays (Legible h) low high (fun _ => True)
        (do Search.lift ((h.withLog _).construct c.1 (← Search.argumentsFor (h.withLog _) build c.2))) :=
      (stays_argumentsFor hh hbuild c.2).bind fun _ => Stays.lift (silent_recording _ _)
    cases last
    all_goals
      refine hconstruct.attempt.bind fun ended => ?_
      cases ended with
      | ok v => exact Stays.pure v
      | error f => exact stays_text f fun _ => ih (some f)

omit hbuild in
theorem stays_withParameters (refusal : Fault → Prop) (constructors : List μ) :
    Stays (Legible h) low high refusal (Search.withParameters (h.withLog (Attempt τ)) constructors) := by
  induction constructors with
  | nil => exact Stays.pure []
  | cons c constructors ih =>
    obtain ⟨parameters, hparameters⟩ := hh.parameters c
    exact Stays.query hparameters (ih.bind fun _ => Stays.pure _)

theorem stays_ofConstructors (typeName : String) (constructors : List (μ × List (Parameter τ))) :
    Stays (Legible h) low high IsInstantiation
      (Search.ofConstructors (h.withLog _) build typeName constructors) := by
  rw [Search.ofConstructors]
  cases constructors.find? fun c => c.2.isEmpty with
  | some c =>
    have hconstruct : Stays (Legible h) low high (fun _ => True)
        (Search.lift ((h.withLog (Attempt τ)).construct c.1 [])) := Stays.lift (silent_recording _ _)
    refine hconstruct.attempt.bind fun ended => ?_
    cases ended with
    | ok v => exact Stays.pure v
    | error f => exact stays_text f fun _ => Stays.failWith typeName _
  | none => exact stays_firstOf hh hbuild typeName none _

/-- If texts can be taken, faults of another kind come only from defaults. -/
theorem stays_ofType {kind : TypeKind} {type : τ} (hkind : Always (h.typeKind type) (.ok kind)) (typeName : String) :
    Stays (Legible h) low high (fun f => kind.hasDefault = true ∨ IsInstantiation f)
      (Search.ofType (h.withLog _) build typeName type) := by
  rw [Search.ofType]
  refine Stays.query hkind ?_
  cases kind with
  | string => exact Stays.pure _
  | value | enum | array => exact (Stays.lift (silent_defaultOf h _ type)).mono fun _ _ => .inl rfl
  | abstractClass | interface => exact (Stays.failWith typeName _).mono fun _ => .inr
  | plainClass =>
    obtain ⟨constructors, hconstructors⟩ := hh.constructors type
    refine Stays.query hconstructors ?_
    exact (stays_withParameters hh _ constructors).bind fun cs =>
      (stays_ofConstructors hh hbuild typeName cs).mono fun _ => .inr

end

/-! ### A call -/

section

variable {legible : Prop} {depth high : Int} {typeName : String} {refusal : Fault → Prop}
  {search : WatchedSearch τ σ Value} {x : WatchedState τ σ}

/-- The attempt of a type that has not failed at its depth or above. -/
theorem grows_noting (hsearch : Stays legible (depth + 1) high refusal search) (hhigh : depth ≤ high)
    (hdepth : ∀ level, x.1.lookup typeName = some level → depth < level) :
    Grows legible depth high x
      (WatchedState.log ((Search.noting typeName depth (Search.notingFailure typeName depth search)).run x).2) := by
  have hkeeps := hsearch x
  have hextended := hkeeps.extended.mono (show depth ≤ depth + 1 by omega)
  rw [run_noting]
  rcases hrun : search.run x with ⟨raised | a, y⟩ <;> rw [hrun] at hkeeps hextended
  · rw [Search.run_notingFailure_of_error hrun]
    exact ⟨hextended.snoc (Int.le_refl _) hhigh, fun hlegible hx =>
      (hkeeps.decreasing hlegible hx).snoc_failed (hkeeps.lt_of_failed hx hdepth)⟩
  · rw [Search.run_notingFailure_of_ok hrun]
    exact ⟨hextended, hkeeps.decreasing⟩

/-- If it fails in the usual way, then it is remembered. -/
theorem keeps_noting (hsearch : Stays legible (depth + 1) high IsInstantiation search) (hhigh : depth ≤ high)
    (hdepth : ∀ level, x.1.lookup typeName = some level → depth < level) :
    Keeps legible depth high IsInstantiation x
      ((Search.noting typeName depth (Search.notingFailure typeName depth search)).run x).1
      ((Search.noting typeName depth (Search.notingFailure typeName depth search)).run x).2 := by
  have hkeeps := hsearch x
  have hgrows := grows_noting hsearch hhigh hdepth
  rw [run_noting] at hgrows ⊢
  rcases hrun : search.run x with ⟨(f | e) | a, y⟩ <;> rw [hrun] at hkeeps
  · rw [Search.run_notingFailure_of_error hrun] at hgrows ⊢
    refine ⟨hgrows, fun hlegible hx _ => ?_, fun hlegible f hf => ?_⟩
    · obtain ⟨e, rfl⟩ := hkeeps.refused hlegible f rfl
      exact (hkeeps.booked hlegible hx nofun).noted (hkeeps.lt_of_failed hx hdepth) e
    · cases hf
      exact hkeeps.refused hlegible f rfl
  · rw [Search.run_notingFailure_of_error hrun] at hgrows ⊢
    exact ⟨hgrows, fun _ _ hexit => absurd rfl (hexit e), nofun⟩
  · rw [Search.run_notingFailure_of_ok hrun] at hgrows ⊢
    exact ⟨hgrows, fun hlegible hx _ => hkeeps.booked hlegible hx nofun, nofun⟩

end

section

variable {h : Host τ μ σ} {bound depth high : Int} {type : τ} {x : WatchedState τ σ}

/-- Either the type has failed before, or it is tried. -/
theorem run_watchedCall (bound depth : Int) {typeName : String} (hname : Always (h.typeName type) (.ok typeName))
    (deeper : Int → τ → WatchedSearch τ σ Value) (x : WatchedState τ σ) :
    ∃ y : WatchedState τ σ, y.1 = x.1 ∧ y.log = x.log ++ [.asked type depth] ∧
      ((∃ level, (Search.watchedCall h bound deeper depth type).run x =
          (Search.failWith typeName (.failedBefore level) : WatchedSearch τ σ Value).run y) ∨
        (∀ level, y.1.lookup typeName = some level → depth < level) ∧
          (Search.watchedCall h bound deeper depth type).run x =
            (Search.noting typeName depth (Search.notingFailure typeName depth
              (Search.within h bound (deeper (depth + 1)) depth typeName type))).run y) := by
  obtain ⟨failures, s⟩ := x
  obtain ⟨s', hrun⟩ : ∃ s' : Session σ,
      ((h.withLog (Attempt τ)).typeName type).run (Search.logged (.asked type depth) s) =
        (.ok typeName, s'.withCalls (s.host.2 ++ [Attempt.asked type depth])) :=
    run_recording_of_always hname (Search.logged (.asked type depth) s)
  have hlookup (s : Session (σ × List (Attempt τ))) :
      (Search.failureLevel? typeName : WatchedSearch τ σ (Option Int)).run (failures, s) =
        (.ok (failures.lookup typeName), failures, s) := rfl
  have hnote : (Search.note (.asked type depth)).run (failures, s) =
      (.ok (), failures, Search.logged (.asked type depth) s) := rfl
  refine ⟨(failures, s'.withCalls (s.host.2 ++ [.asked type depth])), rfl, rfl, ?_⟩
  rw [Search.watchedCall, run_bind_of_ok hnote, Search.unlessFailed,
    run_bind_of_ok (Search.run_lift hrun failures), run_bind_of_ok (hlookup _)]
  cases hlevel : failures.lookup typeName with
  | none => exact .inr ⟨fun _ hsome => absurd hsome (by simp), rfl⟩
  | some level =>
    dsimp only
    split
    · exact .inl ⟨level, rfl⟩
    · next hlt =>
      refine .inr ⟨fun level' hlevel' => ?_, rfl⟩
      obtain rfl : level = level' := Option.some.inj hlevel'
      exact Int.not_le.1 hlt

variable (hh : Reflective h) {deeper : Int → τ → WatchedSearch τ σ Value} (hhigh : depth ≤ high)
  (hdeeper : depth ≤ bound → ∀ t kind, Always (h.typeKind t) (.ok kind) → kind.hasDefault = false →
    Stays (Legible h) (depth + 1) high IsInstantiation (deeper (depth + 1) t))
include hh hdeeper

theorem stays_within {kind : TypeKind} (hkind : Always (h.typeKind type) (.ok kind)) (typeName : String) :
    Stays (Legible h) (depth + 1) high (fun f => kind.hasDefault = true ∨ IsInstantiation f)
      (Search.within h bound (deeper (depth + 1)) depth typeName type) := by
  rw [Search.within]
  split
  · exact (Stays.failWith typeName _).mono fun _ => .inr
  · next hle => exact stays_ofType hh (hdeeper (Int.not_lt.1 hle)) hkind typeName

include hhigh

theorem grows_watchedCall (type : τ) (x : WatchedState τ σ) :
    Grows (Legible h) depth high x
      (WatchedState.log ((Search.watchedCall h bound deeper depth type).run x).2) := by
  obtain ⟨kind, hkind⟩ := hh.typeKind type
  obtain ⟨typeName, hname⟩ := hh.typeName type
  obtain ⟨y, hfailures, hlog, hrun⟩ := run_watchedCall bound depth hname deeper x
  have hy (hx : Booked x.1 x.log) : Booked y.1 y.log := by
    rw [hfailures, hlog]
    exact hx.asked type depth
  have hasked : Extends depth high x.log y.log := by
    rw [hlog]
    exact (Extends.refl _).snoc (Int.le_refl _) hhigh
  rcases hrun with ⟨level, hrun⟩ | ⟨hdepth, hrun⟩ <;> rw [hrun]
  · exact ⟨hasked, fun _ hx => (hy hx).decreasing⟩
  · have hgrows := grows_noting (stays_within hh hdeeper hkind typeName) hhigh hdepth
    exact ⟨hasked.trans hgrows.extended, fun hlegible hx => hgrows.decreasing hlegible (hy hx)⟩

theorem stays_watchedCall {kind : TypeKind} (hkind : Always (h.typeKind type) (.ok kind))
    (hdefault : kind.hasDefault = false) :
    Stays (Legible h) depth high IsInstantiation (Search.watchedCall h bound deeper depth type) := by
  intro x
  have hgrows := grows_watchedCall hh hhigh hdeeper type x
  obtain ⟨typeName, hname⟩ := hh.typeName type
  obtain ⟨y, hfailures, hlog, hrun⟩ := run_watchedCall bound depth hname deeper x
  have hy (hx : Booked x.1 x.log) : Booked y.1 y.log := by
    rw [hfailures, hlog]
    exact hx.asked type depth
  rcases hrun with ⟨level, hrun⟩ | ⟨hdepth, hrun⟩ <;> rw [hrun] at hgrows ⊢
  · have hfails : Stays (Legible h) depth high IsInstantiation
        (Search.failWith typeName (.failedBefore level) : WatchedSearch τ σ Value) := Stays.failWith typeName _
    obtain ⟨-, hbooked, hrefused⟩ := hfails y
    exact ⟨hgrows, fun hlegible hx => hbooked hlegible (hy hx), hrefused⟩
  · have hwithin := (stays_within hh hdeeper hkind typeName).mono fun f hf => hf.resolve_left (by simp [hdefault])
    obtain ⟨-, hbooked, hrefused⟩ := keeps_noting hwithin hhigh hdepth
    exact ⟨hgrows, fun hlegible hx => hbooked hlegible (hy hx), hrefused⟩

end

/-! ### The search -/

section

variable {h : Host τ μ σ} (hh : Reflective h) {bound high : Int} (deeper : Int → τ → WatchedSearch τ σ Value)
include hh

/-- So it is with calls in calls, if there are more of them than levels. -/
theorem stays_calls (hbound : bound + 1 ≤ high) (levels : Nat) {depth : Int}
    (hlevels : (bound + 1 - depth).toNat = levels) (hhigh : depth ≤ high) {calls : Nat} (hcalls : levels < calls)
    {type : τ} {kind : TypeKind} (hkind : Always (h.typeKind type) (.ok kind)) (hdefault : kind.hasDefault = false) :
    Stays (Legible h) depth high IsInstantiation ((Search.watchedCall h bound)^[calls] deeper depth type) := by
  induction levels generalizing depth calls type kind with
  | zero =>
    obtain ⟨calls, rfl⟩ := Nat.exists_eq_add_one.2 hcalls
    rw [Function.iterate_succ_apply']
    exact stays_watchedCall hh hhigh (fun hle => absurd hle (by omega)) hkind hdefault
  | succ levels ih =>
    obtain ⟨calls, rfl⟩ := Nat.exists_eq_add_one.2 (Nat.zero_lt_of_lt hcalls)
    rw [Function.iterate_succ_apply']
    refine stays_watchedCall hh hhigh (fun hle t kind' hkind' hdefault' => ?_) hkind hdefault
    exact ih (by omega) (by omega) (by omega) hkind' hdefault'

theorem grows_calls (hbound : bound + 1 ≤ high) {depth : Int} (hhigh : depth ≤ high) {calls : Nat}
    (hcalls : (bound + 1 - depth).toNat < calls) (type : τ) (x : WatchedState τ σ) :
    Grows (Legible h) depth high x
      (WatchedState.log (((Search.watchedCall h bound)^[calls] deeper depth type).run x).2) := by
  obtain ⟨calls, rfl⟩ := Nat.exists_eq_add_one.2 (Nat.zero_lt_of_lt hcalls)
  rw [Function.iterate_succ_apply']
  refine grows_watchedCall hh hhigh (fun hle t kind hkind hdefault => ?_) type x
  exact stays_calls hh deeper hbound _ rfl (by omega) (by omega) hkind hdefault

end

/-- The search stays between the depth at which it starts and one level below the bound.  If texts can be taken, each
type fails at smaller and smaller depths, so at most once at each of them. -/
structure Bounded (legible : Prop) (bound : Int) (log : List (Attempt τ)) : Prop where
  depth : ∀ attempt ∈ log, 0 ≤ attempt.depth ∧ attempt.depth ≤ max 0 (bound + 1)
  decreasing : legible → ∀ typeName, (failureDepths typeName log).Pairwise (· > ·)
  length : legible → ∀ typeName, (failureDepths typeName log).length ≤ max 0 (bound + 1) + 1

theorem length_le_of_decreasing {depths : List Int} {high : Int} (hhigh : -1 ≤ high)
    (hdecreasing : depths.Pairwise (· > ·)) (hdepths : ∀ depth ∈ depths, 0 ≤ depth ∧ depth ≤ high) :
    depths.length ≤ high + 1 := by
  induction depths generalizing high with
  | nil => simpa using Int.add_le_add_right hhigh 1
  | cons depth depths ih =>
    obtain ⟨hhead, htail⟩ := List.pairwise_cons.1 hdecreasing
    obtain ⟨hpos, hle⟩ := hdepths depth List.mem_cons_self
    have hlength := ih (show -1 ≤ depth - 1 by omega) htail fun depth' hmem =>
      ⟨(hdepths depth' (List.mem_cons_of_mem depth hmem)).1, Int.le_sub_one_of_lt (hhead depth' hmem)⟩
    rw [List.length_cons]
    omega

theorem Bounded.of_grows {legible : Prop} {bound : Int} {s : Session σ} {log : List (Attempt τ)}
    (h : Grows legible 0 (max 0 (bound + 1)) ([], s.withCalls []) log) : Bounded legible bound log := by
  obtain ⟨⟨added, hlog, hadded⟩, hdecreasing⟩ := h
  obtain rfl : log = added := hlog
  refine ⟨hadded, fun hlegible => hdecreasing hlegible Booked.nil, fun hlegible typeName => ?_⟩
  exact length_le_of_decreasing (by omega) (hdecreasing hlegible Booked.nil typeName) fun depth hmem =>
    hadded _ (mem_failureDepths.1 hmem)

/-- Whatever the constructors refer to, the search is bounded.  As it needs no more calls in calls than there are
levels, it comes to an end. -/
theorem instanceOf_bounded {h : Host τ μ σ} (hh : Reflective h) (bound : Int) (type : τ) (s : Session σ)
    (deeper : Int → τ → WatchedSearch τ σ Value) {calls : Nat} (hcalls : (bound + 1).toNat < calls) :
    ∃ log ended failures s',
      ((Search.watchedCall h bound)^[calls] deeper 0 type).run ([], s.withCalls []) =
        (ended, failures, s'.withCalls log) ∧
      (instanceOf h type bound 0).run s = (ended, s') ∧ Bounded (Legible h) bound log := by
  have hlevels : (bound + 1 - 0).toNat < calls := by omega
  have halike := alike_watchedCall h bound deeper _ rfl hlevels type ([], s) ([], s.withCalls []) ⟨rfl, rfl⟩
  have hgrows := grows_calls hh deeper (Int.le_max_right 0 (bound + 1)) (Int.le_max_left ..) hlevels type
    ([], s.withCalls [])
  rcases hrun : ((Search.watchedCall h bound)^[calls] deeper 0 type).run ([], s.withCalls []) with ⟨ended, failures, t⟩
  rw [hrun] at halike hgrows
  obtain ⟨hended, hfailures, hlogged⟩ := halike
  exact ⟨t.host.2, ended, failures, t.withoutCalls, rfl, Prod.ext hended hlogged.symm, Bounded.of_grows hgrows⟩

/-- A type whose constructors all refer to the type itself. -/
def nodeGraph : TypeGraph Unit (List Unit) where
  typeName _ := "Sample.Node"
  kind _ := .plainClass
  members _ := []
  element type := type
  newArray _ _ := .none
  created _ := none
  constructors _ := [[()], [(), ()], [(), (), ()]]
  parameters c := c.map fun type => ⟨"", type, "Sample.Node", 0, false, none⟩
  construct _ := some fun arguments => .object "Sample.Node" arguments

theorem reflective_host (g : TypeGraph τ μ) (raised : Raised) : Reflective (g.host raised) := by
  have hg := describes_host g raised
  exact ⟨fun t => ⟨_, hg.typeName t⟩, fun t => ⟨_, hg.kind t⟩, fun t => ⟨_, hg.constructors t⟩,
    fun c => ⟨_, hg.parameters c⟩⟩

theorem instanceOf_bounded_node :
    Reflective (nodeGraph.host (.fault default)) ∧ ((2 : Int) + 1).toNat < 4 ∧
    ∃ log ended failures s',
      ((Search.watchedCall (nodeGraph.host (.fault default)) 2)^[4] (fun _ _ => Search.failWith "" .noConstructor) 0
        ()).run ([], (Session.start ()).withCalls []) = (ended, failures, s'.withCalls log) ∧
      (instanceOf (nodeGraph.host (.fault default)) () 2 0).run (Session.start ()) = (ended, s') ∧
      Bounded (Legible (nodeGraph.host (.fault default))) 2 log ∧ Legible (nodeGraph.host (.fault default)) := by
  have hh := reflective_host nodeGraph (.fault default)
  have hcalls : ((2 : Int) + 1).toNat < 4 := by decide
  refine ⟨hh, hcalls, ?_⟩
  obtain ⟨log, ended, failures, s', hwatched, hrun, hbounded⟩ :=
    instanceOf_bounded hh 2 () (Session.start ()) (fun _ _ => Search.failWith "" .noConstructor) hcalls
  exact ⟨log, ended, failures, s', hwatched, hrun, hbounded, legible_host _ _⟩

/-! ### A failure without a text -/

namespace Sealed

/-- Boxes (`true`) are made from lids, of which none can be made. -/
def graph : TypeGraph Bool (List Bool) where
  typeName box := if box then "Sample.Box" else "Sample.Lid"
  kind _ := .plainClass
  members _ := []
  element type := type
  newArray _ _ := .none
  created _ := none
  constructors box := if box then [[false], [false, false], [false, false, false]] else [[]]
  parameters c := c.map fun type => ⟨"", type, "Sample.Lid", 0, false, none⟩
  construct c := if c = [] then none else some fun arguments => .object "Sample.Box" arguments

/-- The exception of a lid fails when its text is taken; all else shows this failure. -/
def host : Host Bool (List Bool) Unit :=
  { graph.host (.fault (.managed "Sample.Sealed" "" "" "")) with
    text := fun
      | .managed .. => Action.fail (.error "RuntimeError" "sealed" false)
      | _ => return "sealed" }

theorem reflective : Reflective host where
  typeName t := (reflective_host graph (.fault default)).typeName t
  typeKind t := (reflective_host graph (.fault default)).typeKind t
  constructors t := (reflective_host graph (.fault default)).constructors t
  parameters c := (reflective_host graph (.fault default)).parameters c

end Sealed

/-- The depths at which a type fails in the search for an instance, with enough calls in calls. -/
def depthsOfFailures (h : Host τ μ Unit) (bound depth : Int) (type : τ) (typeName : String) : List Int :=
  let calls := (bound + 1 - depth).toNat + 1
  let search := (Search.watchedCall h bound)^[calls] (fun _ _ => Search.failWith "" .noConstructor) depth type
  failureDepths typeName (WatchedState.log (search.run ([], (Session.start ()).withCalls [])).2)

/-- The failure of a lid is not remembered, so each constructor of the box tries again to make one, at the same depth.
And if the search starts at a negative depth, a type may fail more often than the bound says. -/
theorem fails_again :
    Reflective Sealed.host ∧ depthsOfFailures Sealed.host 2 0 true "Sample.Lid" = [1, 1, 1] ∧
    depthsOfFailures { nodeGraph.host (.fault default) with text := fun _ => return "" } 0 (-2) () "Sample.Node" =
      [1, 0, -1, -2] := by
  refine ⟨Sealed.reflective, ?_, ?_⟩
  · cbv
  · cbv

end CilProbe.Synthesis
