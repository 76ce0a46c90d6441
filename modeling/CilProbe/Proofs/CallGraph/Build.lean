import CilProbe.Proofs.CallGraph.Order

/-!
# No edge is refused

Whatever code calls, both ends of a call are nodes when the call is added: the caller is a node because methods are
only expanded after they were added, the callee because it is added right before.  So graphs are always built, of a
whole assembly (`CallSource.tryGraph_eq`) and around a method (`CallSource.trySubgraph_eq`), also where listings are
read by actions.

`Expanded` says what one level of the search adds; `CallSource.exists_expand_eq_ok` is what the search uses of `expand`.
-/

namespace CilProbe.CallSource

open CallGraph

/-- The calls of methods, one behind the other. -/
def flatten (ps : List (Method × List Call)) : List (Method × Call) := ps.flatMap fun p => p.2.map (p.1, ·)

/-- Steps that succeed and carry `P` along make a fold that does. -/
private theorem exists_foldlM_eq_ok {α β ε : Type} {f : β → α → Except ε β} {l : List α} {b : β}
    (P : List α → β → Prop) (start : P [] b)
    (step : ∀ done b, P done b → ∀ a ∈ l, ∃ b', f b a = .ok b' ∧ P (done ++ [a]) b') :
    ∃ b', l.foldlM f b = .ok b' ∧ P l b' := by
  -- The invariant counts the part of the list that is done, so it is generalised to any such part.
  suffices ∀ rest done b, (∀ a ∈ rest, a ∈ l) → P done b → ∃ b', rest.foldlM f b = .ok b' ∧ P (done ++ rest) b' from
    this l [] b (fun _ => id) start
  intro rest
  induction rest with
  | nil => exact fun done b _ h => ⟨b, rfl, by rwa [List.append_nil]⟩
  | cons a rest ih =>
    intro done b hl h
    obtain ⟨b', hb', h'⟩ := step done b h a (hl a (by simp))
    obtain ⟨b'', hb'', h''⟩ := ih (done ++ [a]) b' (fun a ha => hl a (by simp [ha])) h'
    rw [List.append_assoc] at h''
    exact ⟨b'', by rw [List.foldlM_cons, hb']; exact hb'', h''⟩

private theorem flatten_append (ps qs : List (Method × List Call)) : flatten (ps ++ qs) = flatten ps ++ flatten qs :=
  List.flatMap_append

private theorem flatten_singleton (p : Method × List Call) : flatten [p] = p.2.map (p.1, ·) := by simp [flatten]

/-! ### The whole assembly -/

private theorem recorded_addNodes {methods : List Method} {calls : List (Method × Call)} {g : CallGraph}
    (h : Recorded methods calls g) (ms : List Method) :
    Recorded (methods ++ ms) calls (ms.foldl (fun g m => (g.addNode m).2) g) := by
  induction ms generalizing methods g with
  | nil => rwa [List.append_nil]
  | cons m ms ih =>
    have h' := ih (h.addNode m)
    rwa [List.append_assoc] at h'

private theorem recorded_addCalls {methods : List Method} {before : List (Method × Call)} {g : CallGraph}
    (h : Recorded methods before g) {m : Method} (hm : m ∈ methods) (calls : List Call) :
    ∃ g', calls.foldlM (addCall false m) g = .ok g' ∧
      Recorded (methods ++ calls.map (·.1)) (before ++ calls.map (m, ·)) g' := by
  refine exists_foldlM_eq_ok
    (fun calls g => Recorded (methods ++ calls.map (·.1)) (before ++ calls.map (m, ·)) g) (by simpa using h) ?_
  intro done g h c _
  obtain ⟨g', hg', h'⟩ := h.addCall (List.mem_append_left _ hm) c
  exact ⟨g', hg', by simpa using h'⟩

variable {μ : Type → Type}

/-- The calls that stay in the assembly, each with the method that makes it. -/
def localCallsOf (s : CallSource μ) (ps : List (Method × List Call)) : List (Method × Call) :=
  flatten (ps.map fun p => (p.1, p.2.filter (s.isLocal ·.1)))

/-- The graph of methods of the assembly has the methods and then what their local calls add, call by call. -/
theorem exists_graphOf_eq_ok (s : CallSource μ) {ps : List (Method × List Call)} (hps : ∀ p ∈ ps, p.1 ∈ s.methods) :
    ∃ g, s.graphOf ps = .ok g ∧
      Recorded (s.methods ++ (s.localCallsOf ps).map (·.2.1)) (s.localCallsOf ps) g := by
  have hnodes := recorded_addNodes Recorded.empty s.methods
  rw [graphOf]
  refine exists_foldlM_eq_ok (fun ps g =>
    Recorded (s.methods ++ (s.localCallsOf ps).map (·.2.1)) (s.localCallsOf ps) g) (by simpa [localCallsOf, flatten]) ?_
  intro done g h p hp
  obtain ⟨g', hg', h'⟩ := recorded_addCalls h (List.mem_append_left _ (hps p hp)) (p.2.filter (s.isLocal ·.1))
  have hlocal : s.localCallsOf (done ++ [p]) = s.localCallsOf done ++ (p.2.filter (s.isLocal ·.1)).map (p.1, ·) := by
    rw [localCallsOf, List.map_append, flatten_append, List.map_singleton, flatten_singleton, localCallsOf]
  refine ⟨g', hg', ?_⟩
  rw [hlocal, List.map_append, List.map_map, ← List.append_assoc]
  exact h'

/-! ### One level of the search -/

/-- `g` is `g₀` with calls, and `found` are the methods of these calls that are new. -/
structure Expanded (s : CallSource μ) (g₀ : CallGraph) (calls : List (Method × Call)) (g : CallGraph)
    (found : List Method) : Prop where
  grown : Grown (fun m => !s.isLocal m) g₀ calls g
  mem_found : ∀ m ∈ found, ¬g₀.contains m.id ∧ ∃ c ∈ calls, c.2.1 = m
  found_of_new : ∀ c ∈ calls, ¬g₀.contains c.2.1.id → ∃ m ∈ found, m.id = c.2.1.id

theorem expand_cons (s : CallSource μ) {m : Method} {c : Call} {calls : List Call} {g : CallGraph}
    {found : List Method} :
    s.expand (g, found) (m, c :: calls) = CallSource.addCall (!s.isLocal c.1) m g c >>= fun g' =>
      s.expand (g', if g.contains c.1.id then found else found ++ [c.1]) (m, calls) := by
  simp only [expand, List.foldlM_cons, bind_assoc, pure_bind]

/-- One call of a method that is expanded. -/
private theorem Expanded.addCall {s : CallSource μ} {g₀ g : CallGraph} {calls : List (Method × Call)}
    {found : List Method} (h : s.Expanded g₀ calls g found) {m : Method} (hm : g₀.contains m.id) (c : Call) :
    ∃ g', CallSource.addCall (!s.isLocal c.1) m g c = .ok g' ∧
      s.Expanded g₀ (calls ++ [(m, c)]) g' (if g.contains c.1.id then found else found ++ [c.1]) := by
  obtain ⟨g', hg', hgrown⟩ := h.grown.addCall ((h.grown.contains_iff m.id).2 (Or.inl hm)) c
  refine ⟨g', hg', hgrown, ?_, ?_⟩
  · intro m' hm'
    have hm'' : m' ∈ found ∨ ¬g.contains c.1.id ∧ m' = c.1 := by
      split at hm'
      · exact Or.inl hm'
      · next hnew => simpa [hnew] using hm'
    rcases hm'' with hm'' | ⟨hnew, rfl⟩
    · obtain ⟨hg₀, c', hc', rfl⟩ := h.mem_found m' hm''
      exact ⟨hg₀, c', by simp [hc'], rfl⟩
    · rw [h.grown.contains_iff] at hnew
      exact ⟨fun hg₀ => hnew (Or.inl hg₀), (m, c), by simp, rfl⟩
  · have hkeep : ∀ m' ∈ found, m' ∈ if g.contains c.1.id then found else found ++ [c.1] := by
      intro m' hm'
      split <;> simp [hm']
    intro c' hc' hnew
    rcases List.mem_append.1 hc' with hc' | hc'
    · obtain ⟨m', hm', hid⟩ := h.found_of_new c' hc' hnew
      exact ⟨m', hkeep m' hm', hid⟩
    · rw [List.mem_singleton] at hc'
      subst hc'
      by_cases hg : g.contains c.1.id
      · obtain ⟨c'', hc'', hid⟩ := ((h.grown.contains_iff _).1 hg).resolve_left hnew
        obtain ⟨m', hm', hid'⟩ := h.found_of_new c'' hc'' (hid ▸ hnew)
        exact ⟨m', hkeep m' hm', hid'.trans hid.symm⟩
      · exact ⟨c.1, by simp [hg], rfl⟩

private theorem Expanded.expand {s : CallSource μ} {g₀ : CallGraph} {before : List (Method × Call)}
    {r : CallGraph × List Method} (h : s.Expanded g₀ before r.1 r.2) {p : Method × List Call}
    (hp : g₀.contains p.1.id) :
    ∃ r', s.expand r p = .ok r' ∧ s.Expanded g₀ (before ++ flatten [p]) r'.1 r'.2 := by
  have h₀ : s.Expanded g₀ (before ++ ([] : List Call).map (p.1, ·)) r.1 r.2 := by simpa using h
  rw [flatten_singleton, CallSource.expand]
  refine exists_foldlM_eq_ok
    (fun calls (r : CallGraph × List Method) => s.Expanded g₀ (before ++ calls.map (p.1, ·)) r.1 r.2) h₀ ?_
  intro done r h c _
  obtain ⟨g', hg', h'⟩ := h.addCall hp c
  exact ⟨(g', if r.1.contains c.1.id then r.2 else r.2 ++ [c.1]), by simp [hg'], by simpa using h'⟩

/-- Methods of a graph can be expanded, whatever they call. -/
theorem exists_expand_eq_ok (s : CallSource μ) {g₀ : CallGraph} (hwf : g₀.WellFormed) {ps : List (Method × List Call)}
    (hps : ∀ p ∈ ps, g₀.contains p.1.id) :
    ∃ r, ps.foldlM s.expand (g₀, []) = .ok r ∧ s.Expanded g₀ (flatten ps) r.1 r.2 := by
  have h₀ : s.Expanded g₀ (flatten []) g₀ [] := ⟨Grown.refl hwf _, by simp, by simp [flatten]⟩
  refine exists_foldlM_eq_ok (fun ps (r : CallGraph × List Method) => s.Expanded g₀ (flatten ps) r.1 r.2) h₀ ?_
  intro done r h p hp
  obtain ⟨r', hr', h'⟩ := h.expand (hps p hp)
  exact ⟨r', hr', by rwa [flatten_append]⟩

/-! ### Graphs that are read by actions -/

variable [Monad μ] [LawfulMonad μ]

/-- Methods with their calls are the methods beside the calls that are read one after the other. -/
theorem withCalls_eq (s : CallSource μ) (ms : List Method) : s.withCalls ms = ms.zip <$> ms.mapM s.calls := by
  induction ms with
  | nil => simp [withCalls]
  | cons m ms ih => simp [withCalls, ih]

private theorem fst_mem_of_mem_zip {ms : List Method} {calls : List (List Call)} {p : Method × List Call}
    (h : p ∈ ms.zip calls) : p.1 ∈ ms := (List.of_mem_zip h).1

/-- The graph of an assembly is always built. -/
theorem tryGraph_eq (s : CallSource μ) : s.tryGraph = .ok <$> s.graph := by
  have hok (calls : List (List Call)) :
      s.graphOf (s.methods.zip calls) = .ok ((s.graphOf (s.methods.zip calls)).toOption.getD {}) := by
    have hcallers : ∀ p ∈ s.methods.zip calls, p.1 ∈ s.methods := fun _ => fst_mem_of_mem_zip
    obtain ⟨g, hg, -⟩ := s.exists_graphOf_eq_ok hcallers
    rw [hg]
    rfl
  simp only [graph, tryGraph, withCalls_eq, map_eq_pure_bind, bind_assoc, pure_bind]
  refine congrArg _ (funext fun calls => ?_)
  rw [← hok]

private theorem exists_explore_eq (s : CallSource μ) (depth : Nat) {g : CallGraph} (hwf : g.WellFormed)
    {found : List Method} (hfound : ∀ m ∈ found, g.contains m.id) :
    ∃ result : μ CallGraph, s.explore depth g found = .ok <$> result := by
  induction depth generalizing g found with
  | zero => exact ⟨pure g, by simp [explore]⟩
  | succ depth ih =>
    cases found with
    | nil => exact ⟨pure g, by simp [explore]⟩
    | cons m ms =>
      have hnext (calls : List (List Call)) : ∃ result : μ CallGraph,
          proceed (s.explore depth) (((m :: ms).zip calls).foldlM s.expand (g, [])) = .ok <$> result := by
        obtain ⟨r, hr, h⟩ := s.exists_expand_eq_ok hwf fun p hp => hfound p.1 (fst_mem_of_mem_zip hp)
        rw [hr]
        refine ih h.grown.wellFormed fun m' hm' => ?_
        obtain ⟨-, c, hc, rfl⟩ := h.mem_found m' hm'
        exact (h.grown.contains_iff _).2 (Or.inr ⟨c, hc, rfl⟩)
      choose result hresult using hnext
      refine ⟨(m :: ms).mapM s.calls >>= result, ?_⟩
      rw [explore, withCalls_eq, map_bind, seq_bind_eq]
      · exact congrArg _ (funext hresult)
      · simp

/-- The graph around a method is always built. -/
theorem trySubgraph_eq (s : CallSource μ) (root : Method) (maxDepth : Int) :
    s.trySubgraph root maxDepth = .ok <$> s.subgraph root maxDepth := by
  have hroot : ∀ m ∈ [root], (CallGraph.addNode {} root (!s.isLocal root)).2.contains m.id := by
    intro m hm
    rw [List.mem_singleton] at hm
    exact contains_addNode.2 (Or.inr (by rw [hm]))
  obtain ⟨result, h⟩ := s.exists_explore_eq maxDepth.toNat (WellFormed.empty.addNode root (!s.isLocal root)) hroot
  rw [subgraph, trySubgraph, h]
  simp [Except.toOption]

end CilProbe.CallSource
