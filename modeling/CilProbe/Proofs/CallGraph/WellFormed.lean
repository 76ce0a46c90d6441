import CilProbe.CallGraph.Build
import Mathlib.Data.List.Nodup

/-!
# Well-formed call graphs

A graph is well formed if no id and no edge occurs twice and every edge joins two nodes.  The empty graph is well
formed, and adding methods and calls keeps graphs so.

A call is added after the method that is called, so it is refused only if its caller is no node.  `Grown` says what is
in a graph after calls were added, and `Grown.addCall` that one more call can be.
-/

namespace CilProbe.CallGraph

theorem contains_iff {g : CallGraph} {id : String} : g.contains id ↔ id ∈ g.nodes.map (·.id) := by
  simp [contains, node?, List.find?_isSome]

/-- No id and no edge occurs twice, and every edge joins two nodes. -/
structure WellFormed (g : CallGraph) : Prop where
  nodup_ids : (g.nodes.map (·.id)).Nodup
  nodup_edges : g.edges.Nodup
  joined : ∀ e ∈ g.edges, g.contains e.source ∧ g.contains e.target

/-! ### Adding a method -/

theorem edges_addNode (g : CallGraph) (m : Method) (isExternal : Bool) :
    (g.addNode m isExternal).2.edges = g.edges := by
  rw [addNode]
  split <;> rfl

theorem nodes_addNode (g : CallGraph) (m : Method) (isExternal : Bool) :
    (g.addNode m isExternal).2.nodes =
      if g.contains m.id then g.nodes else g.nodes ++ [⟨m.id, m.displayName, isExternal⟩] := by
  rw [addNode, contains]
  cases g.node? m.id <;> rfl

theorem contains_addNode {g : CallGraph} {m : Method} {isExternal : Bool} {id : String} :
    (g.addNode m isExternal).2.contains id ↔ g.contains id ∨ id = m.id := by
  rw [contains_iff, contains_iff, nodes_addNode]
  split
  · next h =>
    rw [contains_iff] at h
    constructor
    · exact Or.inl
    · rintro (h' | rfl) <;> assumption
  · simp

theorem mem_nodes_addNode {g : CallGraph} {m : Method} {isExternal : Bool} {node : Node}
    (h : node ∈ (g.addNode m isExternal).2.nodes) :
    node ∈ g.nodes ∨ node = ⟨m.id, m.displayName, isExternal⟩ := by
  rw [nodes_addNode] at h
  split at h
  · exact Or.inl h
  · simpa using h

theorem WellFormed.addNode {g : CallGraph} (h : g.WellFormed) (m : Method) (isExternal : Bool) :
    (g.addNode m isExternal).2.WellFormed := by
  refine ⟨?_, by rw [edges_addNode]; exact h.nodup_edges, ?_⟩
  · rw [nodes_addNode]
    split
    · exact h.nodup_ids
    · next hnew =>
      rw [contains_iff] at hnew
      rw [List.map_append, List.map_singleton, ← List.concat_eq_append]
      exact h.nodup_ids.concat hnew
  · intro e he
    rw [edges_addNode] at he
    obtain ⟨hsource, htarget⟩ := h.joined e he
    exact ⟨contains_addNode.2 (Or.inl hsource), contains_addNode.2 (Or.inl htarget)⟩

theorem WellFormed.empty : WellFormed {} := ⟨by simp, by simp, by simp⟩

/-! ### Adding an edge -/

theorem nodes_insertEdge (g : CallGraph) (edge : Edge) : (g.insertEdge edge).nodes = g.nodes := by
  rw [insertEdge]
  split <;> rfl

theorem contains_insertEdge {g : CallGraph} {edge : Edge} {id : String} :
    (g.insertEdge edge).contains id ↔ g.contains id := by
  rw [contains_iff, contains_iff, nodes_insertEdge]

theorem mem_edges_insertEdge {g : CallGraph} {edge e : Edge} :
    e ∈ (g.insertEdge edge).edges ↔ e ∈ g.edges ∨ e = edge := by
  rw [insertEdge]
  split
  · next h =>
    rw [List.contains_iff_mem] at h
    constructor
    · exact Or.inl
    · rintro (h' | rfl) <;> assumption
  · simp

theorem WellFormed.insertEdge {g : CallGraph} (h : g.WellFormed) {edge : Edge} (hsource : g.contains edge.source)
    (htarget : g.contains edge.target) : (g.insertEdge edge).WellFormed := by
  refine ⟨by rw [nodes_insertEdge]; exact h.nodup_ids, ?_, ?_⟩
  · rw [CallGraph.insertEdge]
    split
    · exact h.nodup_edges
    · next hnew =>
      rw [List.contains_iff_mem] at hnew
      rw [← List.concat_eq_append]
      exact h.nodup_edges.concat hnew
  · intro e he
    rw [contains_insertEdge, contains_insertEdge]
    rcases mem_edges_insertEdge.1 he with he | rfl
    · exact h.joined e he
    · exact ⟨hsource, htarget⟩

/-! ### Adding calls -/

/-- The edge of a call. -/
def edgeOf (c : Method × CallSource.Call) : Edge := ⟨c.1.id, c.2.1.id, c.2.2⟩

/-- The node of a method, with the mark that `external` gives it. -/
def nodeOf (external : Method → Bool) (m : Method) : Node := ⟨m.id, m.displayName, external m⟩

/-- A call that is added brings in no other method than the one that is called. -/
theorem contains_of_addCall {external : Bool} {caller : Method} {g g' : CallGraph} {call : CallSource.Call}
    (h : CallSource.addCall external caller g call = .ok g') (id : String) :
    g'.contains id ↔ g.contains id ∨ id = call.1.id := by
  rw [CallSource.addCall, addEdge] at h
  split at h
  · cases h
    rw [contains_insertEdge, contains_addNode]
  · contradiction

/-- The method that is called is shown at the end, unless its id is there. -/
theorem nodes_of_addCall {external : Bool} {caller : Method} {g g' : CallGraph} {call : CallSource.Call}
    (h : CallSource.addCall external caller g call = .ok g') :
    g'.nodes =
      if g.contains call.1.id then g.nodes else g.nodes ++ [⟨call.1.id, call.1.displayName, external⟩] := by
  rw [CallSource.addCall, addEdge] at h
  split at h
  · cases h
    rw [nodes_insertEdge, nodes_addNode]
  · contradiction

/-- `g` is `g₀` with calls and the methods that they call. -/
structure Grown (external : Method → Bool) (g₀ : CallGraph) (calls : List (Method × CallSource.Call)) (g : CallGraph) :
    Prop where
  wellFormed : g.WellFormed
  contains_iff (id : String) : g.contains id ↔ g₀.contains id ∨ ∃ c ∈ calls, id = c.2.1.id
  mem_nodes : ∀ node ∈ g.nodes, node ∈ g₀.nodes ∨ ∃ c ∈ calls, node = nodeOf external c.2.1
  mem_edges_iff (e : Edge) : e ∈ g.edges ↔ e ∈ g₀.edges ∨ ∃ c ∈ calls, e = edgeOf c

theorem Grown.refl {g₀ : CallGraph} (h : g₀.WellFormed) (external : Method → Bool) : Grown external g₀ [] g₀ :=
  ⟨h, by simp, fun _ => Or.inl, by simp⟩

/-- A call is added if its caller is a node. -/
theorem Grown.addCall {external : Method → Bool} {g₀ g : CallGraph} {calls : List (Method × CallSource.Call)}
    (h : Grown external g₀ calls g) {caller : Method} (hcaller : g.contains caller.id) (call : CallSource.Call) :
    ∃ g', CallSource.addCall (external call.1) caller g call = .ok g' ∧
      Grown external g₀ (calls ++ [(caller, call)]) g' := by
  have hsource : (g.addNode call.1 (external call.1)).2.contains caller.id := contains_addNode.2 (Or.inl hcaller)
  have htarget : (g.addNode call.1 (external call.1)).2.contains call.1.id := contains_addNode.2 (Or.inr rfl)
  refine ⟨(g.addNode call.1 (external call.1)).2.insertEdge (edgeOf (caller, call)), ?_, ?_⟩
  · simp [CallSource.addCall, addEdge, hsource, htarget, edgeOf]
  refine ⟨(h.wellFormed.addNode _ _).insertEdge hsource htarget, ?_, ?_, ?_⟩
  · intro id
    rw [contains_insertEdge, contains_addNode, h.contains_iff, or_assoc]
    simp only [List.mem_append, List.mem_singleton, or_and_right, exists_or, exists_eq_left]
  · intro node hnode
    rw [nodes_insertEdge] at hnode
    rcases mem_nodes_addNode hnode with hnode | rfl
    · rcases h.mem_nodes node hnode with hnode | ⟨c, hc, rfl⟩
      · exact Or.inl hnode
      · exact Or.inr ⟨c, by simp [hc], rfl⟩
    · exact Or.inr ⟨(caller, call), by simp, rfl⟩
  · intro e
    rw [mem_edges_insertEdge, edges_addNode, h.mem_edges_iff, or_assoc]
    simp only [List.mem_append, List.mem_singleton, or_and_right, exists_or, exists_eq_left]

end CilProbe.CallGraph
