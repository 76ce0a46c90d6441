import CilProbe.Inspection.Query
import CilProbe.Proofs.Inspection.Members

/-!
# Queries one after the other

Listings and call graphs are put together from tokens and stored bodies, so that with a memory they are what they are
without one (`answers_listing`, `answers_graph`, `answers_subgraph`), if the source of bodies says the same each time
(`Steady`).  A query that is asked between other queries therefore ends as if no other one had been asked before:
`answers_eq_fresh`.
-/

namespace CilProbe

open Metadata (LookupError)

variable {σ α β : Type} {m : Metadata}

/-- The bodies that a source finds do not depend on its state. -/
def Steady (bodies : BodySource (StateM σ)) (stored : BodySource Id) : Prop :=
  ∀ address state, ((bodies address).run state).1 = stored address

namespace Inspection

namespace Answers

/-- What comes after a result that does not fail. -/
theorem next {x : Inspection σ α} {f : α → Inspection σ β} {a : α} {g : α → β} (hx : Answers m x (.ok a))
    (hf : ∀ a, Answers m (f a) (.ok (g a))) : Answers m (x >>= f) (.ok (g a)) :=
  hx.bind hf

theorem mapM_ok {f : α → Inspection σ β} {g : α → β} (hf : ∀ a, Answers m (f a) (.ok (g a))) (l : List α) :
    Answers m (l.mapM f) (.ok (l.map g)) := by
  induction l with
  | nil => exact pure []
  | cons a l ih =>
    rw [List.mapM_cons]
    exact (hf a).next fun b => ih.next fun bs => pure (b :: bs)

theorem attempt {x : Inspection σ α} {y : Except LookupError α} (hx : Answers m x y) :
    Answers m (Inspection.attempt x) (.ok y.toOption) := by
  intro memory hm
  obtain ⟨ended, after, hends, -, hsettled⟩ := hx memory hm
  refine ⟨.ok ended.toOption, after, ⟨?_, hends.sound, hends.pending⟩, .ok _, fun hmemory => ?_⟩
  · rw [Inspection.attempt, hends.run]
    rfl
  · obtain ⟨rfl, hafter⟩ := hsettled hmemory
    exact ⟨rfl, hafter⟩

theorem ofSource {act : StateM σ α} {a : α} (hact : ∀ state, (act.run state).1 = a) :
    Answers m (Inspection.ofSource act) (.ok a) := by
  intro memory hm
  refine ⟨.ok a, { memory with source := (act.run memory.source).2 }, ⟨?_, hm.withSource _, rfl⟩, .ok a, fun hmemory =>
    ⟨rfl, hmemory.pending, hmemory.methods⟩⟩
  rw [← hact memory.source]
  rfl

end Answers

/-! ### Listings -/

section

variable {lookup : Nat → Inspection σ (Option Reference)} {found : Nat → Option Reference}
  (hlookup : ∀ token, Answers m (lookup token) (.ok (found token)))
include hlookup

private theorem answers_resolveOperand (opcode : Opcode) (operand : Operand Empty) :
    Answers m (Listing.resolveOperand lookup opcode operand)
      (.ok (Id.run (Listing.resolveOperand (fun token => pure (found token)) opcode operand))) := by
  cases operand with
  | unresolved token =>
    rw [Listing.resolveOperand, Listing.resolveOperand]
    split
    · exact (hlookup token).next fun _ => .pure _
    · exact .pure _
  | resolved value => exact value.elim
  | _ => exact .pure _

theorem answers_resolveM (l : Listing Empty) : Answers m (l.resolveM lookup) (.ok (l.resolve found)) := by
  have hresolve : l.resolve found = ⟨l.lines.map fun line => { line with
      operand := Id.run (Listing.resolveOperand (fun token => pure (found token)) line.opcode line.operand) },
      l.shortfall⟩ := congrArg (Listing.mk · l.shortfall) List.idRun_mapM
  rw [hresolve]
  exact (Answers.mapM_ok (fun line => (answers_resolveOperand hlookup line.opcode line.operand).next fun _ => .pure _)
    l.lines).next fun _ => .pure _

end

section

variable (h : m.LaidOut) {bodies : BodySource (StateM σ)} {stored : BodySource Id} (hbodies : Steady bodies stored)
include h hbodies

theorem answers_code (method : Method) :
    Answers m (code? m bodies method) (.ok ((Assembly.ofMetadata m).code? stored method)) := by
  refine .of_finds (fun _ => finds_name h) ?_
  unfold Assembly.code? Assembly.bodyAddress?
  split
  · exact .pure _
  · exact (Answers.ofSource (hbodies method.rva)).next fun _ => .pure _

theorem answers_listing (method : Method) :
    Answers m (listing? m bodies method) (.ok ((Assembly.ofMetadata m).listing? stored method)) := by
  have htoken (token : Nat) := (answers_resolve (σ := σ) h token).attempt
  refine (answers_code h hbodies method).next (g := Option.map (Assembly.ofMetadata m).listingOf) fun code => ?_
  cases code with
  | none => exact .pure _
  | some code => exact (answers_resolveM htoken (Listing.ofCode code)).map some

end

/-! ### Call graphs -/

section

-- Around one method the other methods do not matter.
variable {name : String} {methods methods' : List Method} {read : Method → Inspection σ (Option (Listing Reference))}
  {given : Method → Id (Option (Listing Reference))} (hread : ∀ method, Answers m (read method) (.ok (given method)))
include hread

private theorem answers_withCalls (ms : List Method) :
    Answers m ((⟨name, methods, read⟩ : CallSource (Inspection σ)).withCalls ms)
      (.ok ((⟨name, methods', given⟩ : CallSource Id).withCalls ms)) := by
  induction ms with
  | nil => exact .pure _
  | cons method ms ih =>
    have hcalls : Answers m ((⟨name, methods, read⟩ : CallSource (Inspection σ)).calls method)
        (.ok ((⟨name, methods', given⟩ : CallSource Id).calls method)) := (hread method).next fun _ => .pure _
    exact hcalls.next fun _ => ih.next fun _ => .pure _

theorem answers_tryGraph : Answers m (⟨name, methods, read⟩ : CallSource (Inspection σ)).tryGraph
    (.ok (⟨name, methods, given⟩ : CallSource Id).tryGraph) :=
  (answers_withCalls hread methods).next fun _ => .pure _

private theorem answers_explore (depth : Nat) (g : CallGraph) (found : List Method) :
    Answers m ((⟨name, methods, read⟩ : CallSource (Inspection σ)).explore depth g found)
      (.ok ((⟨name, methods', given⟩ : CallSource Id).explore depth g found)) := by
  induction depth generalizing g found with
  | zero => exact .pure _
  | succ depth ih =>
    cases found with
    | nil => exact .pure _
    | cons method found =>
      let s : CallSource Id := ⟨name, methods', given⟩
      let next (calls : List (Method × List CallSource.Call)) : Id (Except EdgeError CallGraph) :=
        CallSource.proceed (fun g found => s.explore depth g found) (calls.foldlM s.expand (g, []))
      refine (answers_withCalls hread (method :: found)).next (g := next) fun calls => ?_
      have hproceed (result : Except EdgeError (CallGraph × List Method)) :
          Answers m (CallSource.proceed (fun g found =>
              (⟨name, methods, read⟩ : CallSource (Inspection σ)).explore depth g found) result)
            (.ok (CallSource.proceed (fun g found => s.explore depth g found) result)) := by
        cases result with
        | ok state => exact ih state.1 state.2
        | error e => exact .pure _
      exact hproceed _

theorem answers_trySubgraph (root : Method) (maxDepth : Int) :
    Answers m ((⟨name, methods, read⟩ : CallSource (Inspection σ)).trySubgraph root maxDepth)
      (.ok ((⟨name, methods', given⟩ : CallSource Id).trySubgraph root maxDepth)) :=
  answers_explore hread _ _ _

end

section

variable (h : m.LaidOut) {bodies : BodySource (StateM σ)} {stored : BodySource Id} (hbodies : Steady bodies stored)
include h

private theorem finds_callSource (pending : List Nat) (methods : List Method) :
    Finds m pending (callSource m bodies methods)
      (.ok ⟨(Assembly.ofMetadata m).name, methods, listing? m bodies⟩) :=
  (finds_name h).bind_ok (.pure _)

include hbodies

theorem answers_graph :
    Answers m (graph m bodies) (.ok ((Assembly.ofMetadata m).callSource stored).tryGraph) := by
  have hmethods := answers_methods (σ := σ) h
  rw [Assembly.tryMethods_eq h] at hmethods
  let graphOf (methods : List Method) : Except EdgeError CallGraph :=
    (⟨(Assembly.ofMetadata m).name, methods, (Assembly.ofMetadata m).listing? stored⟩ : CallSource Id).tryGraph
  refine hmethods.next (g := graphOf) fun methods => .of_finds (finds_callSource h · methods) ?_
  exact answers_tryGraph (answers_listing h hbodies)

theorem answers_subgraph (root : Method) (maxDepth : Int) :
    Answers m (subgraph m bodies root maxDepth)
      (.ok (((Assembly.ofMetadata m).callSource stored).trySubgraph root maxDepth)) :=
  .of_finds (finds_callSource h · []) (answers_trySubgraph (answers_listing h hbodies) root maxDepth)

end

end Inspection

/-! ### Queries -/

/-- The answer to a query without a memory. -/
def Assembly.answer (a : Assembly) (stored : BodySource Id) :
    Inspection.Query → Except LookupError Inspection.Answer
  | .resolve token => .reference <$> a.resolve token
  | .findMethod token => .method <$> a.findMethod token
  | .methodDef (.ofNat rid) => .method <$> a.methodDef rid
  | .methodDef rid => .error (.noRow Metadata.Table.methodDef.name rid)
  | .methods => .methods <$> a.tryMethods
  | .typeName table rid depth => .text <$> a.typeNameIn table rid depth
  | .typeAssembly table rid depth => .text <$> a.typeAssemblyIn table rid depth
  | .listing method => .ok (.listing (a.listing? stored method))
  | .graph => .ok (.graph (a.callSource stored).tryGraph)
  | .subgraph root maxDepth => .ok (.graph ((a.callSource stored).trySubgraph root maxDepth))

namespace Inspection

/-- In a sound and settled memory the inspection ends as expected, and the memory is settled afterwards. -/
def Settles (m : Metadata) (act : Inspection σ α) (expected : Except LookupError α) : Prop :=
  ∀ memory : Memory σ, memory.Sound m → memory.Settled m →
    ∃ after, Ends m act memory expected after ∧ after.Settled m

theorem Answers.settles {act : Inspection σ α} {expected : Except LookupError α} (hact : Answers m act expected) :
    Settles m act expected := by
  intro memory hm hmemory
  obtain ⟨ended, after, hends, -, hsettled⟩ := hact memory hm
  obtain ⟨rfl, hafter⟩ := hsettled hmemory
  exact ⟨after, hends, hafter⟩

theorem Finds.settles {act : Inspection σ α} {expected : Except LookupError α} (hact : Finds m [] act expected) :
    Settles m act expected := by
  intro memory hm hmemory
  obtain ⟨after, hends, hmethods⟩ := hact memory hm hmemory.pending
  exact ⟨after, hends, hmemory.of_eq hends.pending hmethods⟩

section

variable (h : m.LaidOut) {bodies : BodySource (StateM σ)} {stored : BodySource Id} (hbodies : Steady bodies stored)
include h hbodies

theorem settles_answer (query : Query) :
    Settles m (answer m bodies query) ((Assembly.ofMetadata m).answer stored query) := by
  cases query with
  | resolve token => exact ((answers_resolve h token).map _).settles
  | findMethod token => exact ((answers_findMethod h token).map _).settles
  | methodDef rid =>
    cases rid with
    | ofNat rid => exact ((answers_methodDef h rid).map _).settles
    | negSucc n =>
      have hnone : Finds m [] (methodDefAt m (.negSucc n) : Inspection σ Method)
          (.error (.noRow Metadata.Table.methodDef.name (.negSucc n))) := (finds_rows h .methodDef).bind_ok (.throw _)
      exact (hnone.map Answer.method).settles
  | methods => exact ((answers_methods h).map _).settles
  | typeName table rid depth => exact ((finds_typeNameIn h table rid depth).map _).settles
  | typeAssembly table rid depth => exact ((finds_typeAssemblyIn h table rid depth).map _).settles
  | listing method => exact ((answers_listing h hbodies method).map _).settles
  | graph => exact ((answers_graph h hbodies).map _).settles
  | subgraph root maxDepth => exact ((answers_subgraph h hbodies root maxDepth).map _).settles

theorem run_ask_answer (query : Query) {memory : Memory σ} (hm : memory.Sound m) (hmemory : memory.Settled m) :
    ∃ after : Memory σ, ((answer m bodies query).ask.run memory) =
      (some ((Assembly.ofMetadata m).answer stored query), after) ∧ after.Sound m ∧ after.Settled m := by
  obtain ⟨after, hends, hafter⟩ := settles_answer h hbodies query memory hm hmemory
  refine ⟨after, ?_, hends.sound, hafter⟩
  simp only [ask, StateT.run, hends.run]

/-- Each of several queries ends as it does without a memory, and the memory they lead to is sound and settled. -/
theorem run_answers (queries : List Query) {memory : Memory σ} (hm : memory.Sound m) (hmemory : memory.Settled m) :
    ∃ after : Memory σ, (answers m bodies queries).run memory =
      (queries.map fun query => some ((Assembly.ofMetadata m).answer stored query), after) ∧
      after.Sound m ∧ after.Settled m := by
  induction queries generalizing memory with
  | nil => exact ⟨memory, rfl, hm, hmemory⟩
  | cons query queries ih =>
    obtain ⟨between, hrun, hsound, hsettled⟩ := run_ask_answer h hbodies query hm hmemory
    obtain ⟨after, hrest, hafter⟩ := ih hsound hsettled
    have hcons : answers m bodies (query :: queries) =
        (answer m bodies query).ask >>= fun first => (first :: ·) <$> answers m bodies queries := by
      rw [answers, List.mapM_cons, answers]
      simp only [map_eq_pure_bind]
    refine ⟨after, ?_, hafter⟩
    rw [hcons, StateT.run_bind, hrun]
    exact (StateT.run_map ..).trans (congrArg _ hrest)

end

/-- Whatever was asked before, each query ends, and as it would have ended for a new memory. -/
theorem answers_eq_fresh {data : Buffer} (h : Metadata.read data = .ok m) {bodies : BodySource (StateM σ)}
    {stored : BodySource Id} (hbodies : Steady bodies stored) (queries : List Query) (source fresh : σ) :
    ((answers m bodies queries).run { source }).1 =
      queries.map (fun query => ((answer m bodies query).ask.run { source := fresh }).1) ∧
    none ∉ ((answers m bodies queries).run { source }).1 := by
  have hlaid := Metadata.LaidOut.of_read h
  have hone (query : Query) : ((answer m bodies query).ask.run { source := fresh }).1 =
      some ((Assembly.ofMetadata m).answer stored query) := by
    obtain ⟨after, hrun, -⟩ := run_ask_answer hlaid hbodies query (.empty fresh) (.empty fresh)
    rw [hrun]
  obtain ⟨after, hall, -⟩ := run_answers hlaid hbodies queries (.empty source) (.empty source)
  constructor
  · simp only [hall, hone]
  · rw [hall, List.mem_map]
    rintro ⟨query, -, hquery⟩
    contradiction

/-- The body is the same at every address, a call of the first method; the state counts how often one was read. -/
private def sameBody : BodySource (StateM Nat) := fun _ count =>
  (some [0x1A, 0x28, 0x01, 0, 0, 0x06, 0x2A], count + 1)

theorem answers_eq_fresh_circular :
    ∃ metadata, Metadata.read circular = .ok metadata ∧
      let queries := [.resolve 0x1B000001, .methods, .typeName "TypeSpec" 2 0, .resolve 0x06000001, .graph, .methodDef 2]
      ((answers metadata sameBody queries).run { source := 0 }).1 =
        queries.map (fun query => ((answer metadata sameBody query).ask.run { source := 7 }).1) ∧
      none ∉ ((answers metadata sameBody queries).run { source := 0 }).1 := by
  have hread : (Metadata.read circular).toOption.isSome = true := by decide +kernel
  have hbodies : Steady sameBody fun _ => some [0x1A, 0x28, 0x01, 0, 0, 0x06, 0x2A] := fun _ _ => rfl
  cases h : Metadata.read circular with
  | error e => rw [h] at hread; contradiction
  | ok metadata => exact ⟨metadata, rfl, answers_eq_fresh h hbodies _ 0 7⟩

end Inspection

end CilProbe
