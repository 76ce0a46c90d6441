import CilProbe.Proofs.CallGraph.WellFormed
import CilProbe.Proofs.Lists

/-!
# The order of nodes and edges

A graph to which methods and calls are added keeps the first node of every id and the first edge of every call, in the
order in which they came.  `Recorded` says so of a graph without external methods, for whatever was added, and
`Recorded.addNode` and `Recorded.addCall` keep it.
-/

namespace CilProbe.CallGraph

/-- What was added to a graph: methods of the assembly, and calls. -/
structure Recorded (methods : List Method) (calls : List (Method × CallSource.Call)) (g : CallGraph) : Prop where
  wellFormed : g.WellFormed
  ids : g.nodes.map (·.id) = (methods.map (·.id)).eraseDups
  nodes : ∀ node ∈ g.nodes, ∃ m, methods.find? (·.id == node.id) = some m ∧ node = nodeOf (fun _ => false) m
  edges : g.edges = (calls.map edgeOf).eraseDups

theorem Recorded.empty : Recorded [] [] {} := ⟨WellFormed.empty, rfl, by simp, rfl⟩

theorem Recorded.contains_iff {methods : List Method} {calls : List (Method × CallSource.Call)} {g : CallGraph}
    (h : Recorded methods calls g) {id : String} : g.contains id ↔ ∃ m ∈ methods, m.id = id := by
  rw [CallGraph.contains_iff, h.ids, List.mem_eraseDups, List.mem_map]

/-- The first method with an id is the one that its node shows. -/
theorem Recorded.nodeOf_mem {methods : List Method} {calls : List (Method × CallSource.Call)} {g : CallGraph}
    (h : Recorded methods calls g) {m : Method} (hfirst : methods.find? (·.id == m.id) = some m) :
    nodeOf (fun _ => false) m ∈ g.nodes := by
  have hcontains := h.contains_iff.2 ⟨m, List.mem_of_find?_eq_some hfirst, rfl⟩
  obtain ⟨node, hnode, hid⟩ := List.mem_map.1 (CallGraph.contains_iff.1 hcontains)
  obtain ⟨shown, hshown, rfl⟩ := h.nodes node hnode
  rw [hid, hfirst, Option.some.injEq] at hshown
  rwa [hshown]

theorem Recorded.addNode {methods : List Method} {calls : List (Method × CallSource.Call)} {g : CallGraph}
    (h : Recorded methods calls g) (m : Method) : Recorded (methods ++ [m]) calls (g.addNode m).2 where
  wellFormed := h.wellFormed.addNode m false
  ids := by
    have hcontains : g.contains m.id = (methods.map (·.id)).contains m.id := by
      rw [Bool.eq_iff_iff, CallGraph.contains_iff, List.contains_iff_mem, h.ids, List.mem_eraseDups]
    rw [nodes_addNode, hcontains, List.map_append, List.map_singleton, eraseDups_concat, ← h.ids]
    split <;> simp
  nodes node hnode := by
    rw [nodes_addNode] at hnode
    -- The first method with an id stays the first one, and a method with a new id is the first one with it.
    have hkept : node ∈ g.nodes →
        ∃ m', (methods ++ [m]).find? (·.id == node.id) = some m' ∧ node = nodeOf (fun _ => false) m' := by
      intro hnode
      obtain ⟨m', hfind, hm'⟩ := h.nodes node hnode
      exact ⟨m', by rw [List.find?_append, hfind, Option.some_or], hm'⟩
    split at hnode
    · exact hkept hnode
    · next hnew =>
      rcases List.mem_append.1 hnode with hnode | hnode
      · exact hkept hnode
      · rw [List.mem_singleton] at hnode
        subst hnode
        have hnone : methods.find? (·.id == m.id) = none := by
          simpa [h.contains_iff] using hnew
        exact ⟨m, by simp [List.find?_append, hnone], rfl⟩
  edges := by rw [edges_addNode, h.edges]

/-- A call is added if its caller is a node. -/
theorem Recorded.addCall {methods : List Method} {calls : List (Method × CallSource.Call)} {g : CallGraph}
    (h : Recorded methods calls g) {caller : Method} (hcaller : caller ∈ methods) (call : CallSource.Call) :
    ∃ g', CallSource.addCall false caller g call = .ok g' ∧
      Recorded (methods ++ [call.1]) (calls ++ [(caller, call)]) g' := by
  have h' := h.addNode call.1
  have hsource : (g.addNode call.1).2.contains caller.id := h'.contains_iff.2 ⟨caller, by simp [hcaller], rfl⟩
  have htarget : (g.addNode call.1).2.contains call.1.id := h'.contains_iff.2 ⟨call.1, by simp, rfl⟩
  refine ⟨(g.addNode call.1).2.insertEdge (edgeOf (caller, call)), ?_, h'.wellFormed.insertEdge hsource htarget, ?_, ?_,
    ?_⟩
  · simp [CallSource.addCall, addEdge, hsource, htarget, edgeOf]
  · rw [nodes_insertEdge, h'.ids]
  · rw [nodes_insertEdge]
    exact h'.nodes
  · have hcontains : (g.addNode call.1).2.edges.contains (edgeOf (caller, call)) =
        (calls.map edgeOf).contains (edgeOf (caller, call)) := by
      rw [Bool.eq_iff_iff, List.contains_iff_mem, List.contains_iff_mem, h'.edges, List.mem_eraseDups]
    rw [insertEdge, hcontains, List.map_append, List.map_singleton, eraseDups_concat, ← h'.edges]
    split <;> rfl

end CilProbe.CallGraph
