import CilProbe.Proofs.CallGraph.Search

/-!
# The graph of an assembly

The graph of an assembly has its methods and the methods of the same assembly that they call, in the order in which
they first occur, and each call between them once, in the order of the code (`CallSource.graph_complete`).  Callees come
after all of the methods, also where a listing resolves an operand to a method that is not among them.
-/

namespace CilProbe.CallSource

open CallGraph

/-- The calls that stay in the assembly, each with the method that makes it, in the order of methods and their code. -/
def localCalls (s : CallSource Id) : List (Method × Call) :=
  s.methods.flatMap fun m => ((callsOf (Id.run (s.listing? m))).filter (s.isLocal ·.1)).map (m, ·)

theorem mem_localCalls {s : CallSource Id} {m t : Method} {kind : CallKind} :
    (m, t, kind) ∈ s.localCalls ↔ m ∈ s.methods ∧ s.Calls m t kind ∧ t.assembly = s.name := by
  have hcalls (m : Method) : (t, kind) ∈ callsOf (Id.run (s.listing? m)) ↔ s.Calls m t kind := mem_calls
  simp only [localCalls, List.mem_flatMap, List.mem_map, List.mem_filter, Prod.mk.injEq, isLocal, beq_iff_eq]
  constructor
  · rintro ⟨m', hm', c, ⟨hc, hlocal⟩, rfl, rfl⟩
    exact ⟨hm', (hcalls m').1 hc, hlocal⟩
  · rintro ⟨hm, hc, hlocal⟩
    exact ⟨m, hm, (t, kind), ⟨(hcalls m).2 hc, hlocal⟩, rfl, rfl⟩

private theorem localCallsOf_withCalls (s : CallSource Id) :
    s.localCallsOf (Id.run (s.withCalls s.methods)) = s.localCalls := by
  rw [withCalls_id, localCallsOf, flatten, List.map_map, List.flatMap_map]
  rfl

/-- The graph is built, and it has the methods, then the local callees, and the local calls. -/
theorem recorded_graph (s : CallSource Id) : Id.run s.tryGraph = .ok (Id.run s.graph) ∧
    Recorded (s.methods ++ s.localCalls.map (·.2.1)) s.localCalls (Id.run s.graph) := by
  have hcallers : ∀ p ∈ Id.run (s.withCalls s.methods), p.1 ∈ s.methods := by
    rw [withCalls_id]
    intro p hp
    obtain ⟨m, hm, rfl⟩ := List.mem_map.1 hp
    exact hm
  obtain ⟨g, hg, h⟩ := s.exists_graphOf_eq_ok hcallers
  rw [localCallsOf_withCalls] at h
  have htry : Id.run s.tryGraph = .ok g := hg
  have hgraph : Id.run s.graph = g := by
    show (Id.run s.tryGraph).toOption.getD {} = g
    rw [htry]
    rfl
  rw [hgraph]
  exact ⟨htry, h⟩

/-- The graph has the methods of the assembly and what they call in it, without repetitions and in order. -/
structure Complete (s : CallSource Id) (g : CallGraph) : Prop where
  /-- Repeated ids are left out, so that each stands where it occurs first. -/
  ids : g.nodes.map (·.id) = (s.methods.map (·.id) ++ s.localCalls.map (·.2.1.id)).eraseDups
  nodup_ids : (g.nodes.map (·.id)).Nodup
  /-- A node shows the first method with its id. -/
  nodes : ∀ node ∈ g.nodes, ∃ m, (s.methods ++ s.localCalls.map (·.2.1)).find? (·.id == node.id) = some m ∧
    node = ⟨m.id, m.displayName, false⟩
  mem_ids (id : String) : id ∈ g.nodes.map (·.id) ↔
    (∃ m ∈ s.methods, m.id = id) ∨ ∃ m ∈ s.methods, ∃ t kind, s.Calls m t kind ∧ t.assembly = s.name ∧ t.id = id
  edges : g.edges = (s.localCalls.map fun c => (⟨c.1.id, c.2.1.id, c.2.2⟩ : Edge)).eraseDups
  nodup_edges : g.edges.Nodup
  mem_edges (e : Edge) : e ∈ g.edges ↔
    ∃ m ∈ s.methods, ∃ t, s.Calls m t e.kind ∧ t.assembly = s.name ∧ e.source = m.id ∧ e.target = t.id

private theorem complete_of_recorded {s : CallSource Id} {g : CallGraph}
    (h : Recorded (s.methods ++ s.localCalls.map (·.2.1)) s.localCalls g) : s.Complete g where
  ids := by rw [h.ids, List.map_append, List.map_map]; rfl
  nodup_ids := h.wellFormed.nodup_ids
  nodes := h.nodes
  mem_ids id := by
    rw [← CallGraph.contains_iff, h.contains_iff]
    constructor
    · rintro ⟨t, ht, rfl⟩
      rcases List.mem_append.1 ht with ht | ht
      · exact Or.inl ⟨t, ht, rfl⟩
      · obtain ⟨⟨m, t, kind⟩, hc, rfl⟩ := List.mem_map.1 ht
        obtain ⟨hm, hcall, hlocal⟩ := mem_localCalls.1 hc
        exact Or.inr ⟨m, hm, t, kind, hcall, hlocal, rfl⟩
    · rintro (⟨m, hm, rfl⟩ | ⟨m, hm, t, kind, hcall, hlocal, rfl⟩)
      · exact ⟨m, List.mem_append_left _ hm, rfl⟩
      · have hc : (m, t, kind) ∈ s.localCalls := mem_localCalls.2 ⟨hm, hcall, hlocal⟩
        exact ⟨t, List.mem_append_right _ (List.mem_map.2 ⟨_, hc, rfl⟩), rfl⟩
  edges := h.edges
  nodup_edges := h.wellFormed.nodup_edges
  mem_edges e := by
    rw [h.edges, List.mem_eraseDups, List.mem_map]
    constructor
    · rintro ⟨⟨m, t, kind⟩, hc, rfl⟩
      obtain ⟨hm, hcall, hlocal⟩ := mem_localCalls.1 hc
      exact ⟨m, hm, t, hcall, hlocal, rfl, rfl⟩
    · rintro ⟨m, hm, t, hcall, hlocal, hsource, htarget⟩
      refine ⟨(m, t, e.kind), mem_localCalls.2 ⟨hm, hcall, hlocal⟩, ?_⟩
      rw [edgeOf, ← hsource, ← htarget]

/-- The graph of an assembly is always built, and it is complete. -/
theorem graph_complete (s : CallSource Id) :
    Id.run s.tryGraph = .ok (Id.run s.graph) ∧ s.Complete (Id.run s.graph) :=
  ⟨s.recorded_graph.1, complete_of_recorded s.recorded_graph.2⟩

end CilProbe.CallSource
