import CilProbe.CallGraph.Export
import CilProbe.CallGraph.Indexed
import CilProbe.Proofs.CallGraph.Order
import CilProbe.Proofs.Failure
import Mathlib.Data.List.Induction

/-!
# The integrity of graphs that grow

Whatever is asked of a graph, in whatever order and with refused calls in between, its nodes, edges and keys stay in
step.  `Indexed.Integral` says so of a graph for what was requested of it, and one more request keeps it
(`Integral.addMethod`, `Integral.addCall`).  What is exported of a graph can be read back (`ofRecords?_records`).
-/

namespace CilProbe.CallGraph

/-! ### Reading what was exported -/

def Node.ofRecord? : Record → Option Node
  | [("id", .text id), ("display_name", .text displayName), ("is_external", .flag isExternal)] =>
    some ⟨id, displayName, isExternal⟩
  | _ => none

def Edge.ofRecord? : Record → Option Edge
  | [("from", .text source), ("to", .text target), ("kind", .text kind)] =>
    (CallKind.ofName? kind).map (⟨source, target, ·⟩)
  | _ => none

/-- The graph with these records; none if one of them is no record of a node or an edge. -/
def ofRecords? (r : Records) : Option CallGraph := do
  return ⟨← r.nodes.mapM Node.ofRecord?, ← r.edges.mapM Edge.ofRecord?⟩

private theorem mapM_map_eq_some {α β : Type} {f : α → β} {g : β → Option α} (h : ∀ a, g (f a) = some a) (l : List α) :
    (l.map f).mapM g = some l := by
  have hinverse : l.mapM (g ∘ f) = pure (l.map id) := mapM_eq_pure fun a _ => h a
  rw [List.mapM_map, hinverse, List.map_id]
  rfl

theorem Node.ofRecord?_record (n : Node) : Node.ofRecord? n.record = some n := rfl

theorem Edge.ofRecord?_record (e : Edge) : Edge.ofRecord? e.record = some e := by
  obtain ⟨source, target, kind⟩ := e
  cases kind <;> rfl

theorem ofRecords?_records (g : CallGraph) : ofRecords? g.records = some g := by
  rw [ofRecords?, records, mapM_map_eq_some Node.ofRecord?_record, mapM_map_eq_some Edge.ofRecord?_record]
  rfl

/-! ### What is requested -/

/-- What may be asked of a graph that grows: to add a method, or a call. -/
inductive Request where
  | method (m : Method) (isExternal : Bool)
  | call (source target : String) (kind : CallKind)

/-- The nodes of the methods among some requests. -/
def requestedNodes (requests : List Request) : List Node :=
  requests.filterMap fun
    | .method m isExternal => some ⟨m.id, m.displayName, isExternal⟩
    | .call .. => none

/-- The edge of a call, if it joins methods that were requested before. -/
def admittedEdge (before : List Request) : Request → Option Edge
  | .method .. => none
  | .call source target kind =>
    let ids := (requestedNodes before).map (·.id)
    if source ∈ ids ∧ target ∈ ids then some ⟨source, target, kind⟩ else none

/-- The edges of the calls among some requests that join methods requested before them. -/
def admittedEdges (before : List Request) : List Request → List Edge
  | [] => []
  | r :: rest => (admittedEdge before r).toList ++ admittedEdges (before ++ [r]) rest

private theorem admittedEdges_concat (before requests : List Request) (r : Request) :
    admittedEdges before (requests ++ [r]) =
      admittedEdges before requests ++ (admittedEdge (before ++ requests) r).toList := by
  induction requests generalizing before with
  | nil => simp [admittedEdges]
  | cons r' requests ih =>
    rw [List.cons_append, admittedEdges, admittedEdges, ih, List.append_assoc, List.append_assoc, List.singleton_append]

/-- The graph after a request. Refused calls change nothing. -/
def serve (g : CallGraph) : Request → CallGraph
  | .method m isExternal => (g.addNode m isExternal).2
  | .call source target kind =>
    match g.addEdge source target kind with
    | .ok (_, g) => g
    | .error _ => g

namespace Indexed

/-- The same with an index. -/
def serve (g : Indexed) : Request → Indexed
  | .method m isExternal => ((addNode m isExternal).run g).2
  | .call source target kind => ((addEdge source target kind).run.run g).2

/-- The graph after some requests. -/
def after (requests : List Request) : Indexed := requests.foldl serve {}

variable {g : Indexed} {m : Method} {isExternal : Bool} {source target : String} {kind : CallKind}

theorem contains_iff {id : String} : g.contains id ↔ id ∈ g.nodes.map (·.1) := by
  simp only [contains, List.lookup_isSome_iff, beq_iff_eq, List.mem_map]
  simp only [eq_comm (a := id)]

/-! ### Single requests -/

theorem run_addNode_of_lookup {node : Node} (h : g.nodes.lookup m.id = some node) :
    (addNode m isExternal).run g = (node, g) := by
  simp only [addNode, StateT.run_bind, StateT.run_get, pure_bind, h]
  rfl

theorem run_addNode_of_new (h : g.nodes.lookup m.id = none) :
    (addNode m isExternal).run g =
      (⟨m.id, m.displayName, isExternal⟩,
        { g with nodes := g.nodes ++ [(m.id, ⟨m.id, m.displayName, isExternal⟩)] }) := by
  simp only [addNode, StateT.run_bind, StateT.run_get, pure_bind, h]
  rfl

private theorem run_get_bind {α : Type} (f : Indexed → ExceptT EdgeError (StateM Indexed) α) :
    (get >>= f).run.run g = (f g).run.run g := rfl

theorem run_addEdge_of_missing (h : ¬(g.contains source ∧ g.contains target)) :
    (addEdge source target kind).run.run g = (.error (.missingNode source target), g) := by
  rw [← Bool.and_eq_true, Bool.not_eq_true] at h
  rw [addEdge, run_get_bind]
  simp only [h]
  rfl

theorem run_addEdge_of_mem (h : g.contains source ∧ g.contains target) (hkey : (source, target, kind) ∈ g.keys) :
    (addEdge source target kind).run.run g = (.ok none, g) := by
  rw [← Bool.and_eq_true] at h
  rw [addEdge, run_get_bind]
  simp only [h, Edge.key, Std.HashSet.contains_iff_mem.2 hkey]
  rfl

theorem run_addEdge_of_new (h : g.contains source ∧ g.contains target) (hkey : (source, target, kind) ∉ g.keys) :
    (addEdge source target kind).run.run g =
      (.ok (some ⟨source, target, kind⟩),
        { g with edges := g.edges ++ [⟨source, target, kind⟩], keys := g.keys.insert (source, target, kind) }) := by
  rw [← Bool.and_eq_true] at h
  rw [← Std.HashSet.contains_iff_mem, Bool.not_eq_true] at hkey
  rw [addEdge, run_get_bind]
  simp only [h, Edge.key, hkey]
  rfl

/-! ### What every request keeps -/

/-- The three parts of a graph agree with each other and with what was requested. -/
structure Integral (requests : List Request) (g : Indexed) : Prop where
  joined : ∀ e ∈ g.edges, g.contains e.source ∧ g.contains e.target
  nodup : g.edges.Nodup
  keys (key : Key) : key ∈ g.keys ↔ ∃ e ∈ g.edges, e.key = key
  keyed : ∀ entry ∈ g.nodes, entry.2.id = entry.1
  /-- The node with an id is the first one that was requested. -/
  first (id : String) : g.nodes.lookup id = (requestedNodes requests).find? (·.id == id)
  ids : g.nodes.map (·.1) = ((requestedNodes requests).map (·.id)).eraseDups
  nodup_ids : (g.nodes.map (·.1)).Nodup
  edges : g.edges = (admittedEdges [] requests).eraseDups
  /-- Without the index it is the graph that was requested. -/
  graph : g.graph = requests.foldl CallGraph.serve {}

namespace Integral

variable {requests : List Request}

theorem empty : Integral [] {} where
  joined := by simp
  nodup := List.nodup_nil
  keys key := by simp
  keyed := by simp
  first id := rfl
  ids := rfl
  nodup_ids := List.nodup_nil
  edges := rfl
  graph := rfl

theorem contains_eq (h : Integral requests g) (id : String) :
    (requests.foldl CallGraph.serve {}).contains id = g.contains id := by
  have hids : g.graph.nodes.map (·.id) = g.nodes.map (·.1) := by
    rw [Indexed.graph, List.map_map]
    exact List.map_congr_left h.keyed
  rw [← h.graph, Bool.eq_iff_iff, CallGraph.contains_iff, hids, Indexed.contains_iff]

theorem contains_iff (h : Integral requests g) {id : String} :
    g.contains id ↔ id ∈ (requestedNodes requests).map (·.id) := by
  rw [Indexed.contains_iff, h.ids, List.mem_eraseDups]

theorem mem_keys_iff (h : Integral requests g) :
    (source, target, kind) ∈ g.keys ↔ ⟨source, target, kind⟩ ∈ g.edges := by
  rw [h.keys]
  constructor
  · rintro ⟨⟨source, target, kind⟩, he, heq⟩
    cases heq
    exact he
  · exact fun he => ⟨_, he, rfl⟩

private theorem requestedNodes_method :
    requestedNodes (requests ++ [.method m isExternal]) =
      requestedNodes requests ++ [⟨m.id, m.displayName, isExternal⟩] := by
  simp [requestedNodes]

private theorem requestedNodes_call :
    requestedNodes (requests ++ [.call source target kind]) = requestedNodes requests := by
  simp [requestedNodes]

private theorem admittedEdges_method :
    admittedEdges [] (requests ++ [.method m isExternal]) = admittedEdges [] requests := by
  rw [admittedEdges_concat, admittedEdge, Option.toList_none, List.append_nil]

private theorem foldl_serve_concat (r : Request) :
    (requests ++ [r]).foldl CallGraph.serve {} = (requests.foldl CallGraph.serve {}).serve r := by
  rw [List.foldl_append, List.foldl_cons, List.foldl_nil]

private theorem serve_method (g : CallGraph) : g.serve (.method m isExternal) =
    ⟨if g.contains m.id then g.nodes else g.nodes ++ [⟨m.id, m.displayName, isExternal⟩], g.edges⟩ := by
  rw [CallGraph.serve, ← nodes_addNode, ← edges_addNode]

private theorem serve_call (g : CallGraph) : g.serve (.call source target kind) =
    if g.contains source ∧ g.contains target then g.insertEdge ⟨source, target, kind⟩ else g := by
  rw [CallGraph.serve, CallGraph.addEdge]
  cases g.contains source <;> cases g.contains target <;> rfl

/-- A method that is there changes nothing. -/
private theorem addMethod_of_lookup (h : Integral requests g) {node : Node} (hfound : g.nodes.lookup m.id = some node) :
    Integral (requests ++ [.method m isExternal]) (g.serve (.method m isExternal)) := by
  have hthere : g.contains m.id = true := by rw [contains, hfound, Option.isSome_some]
  rw [serve, run_addNode_of_lookup hfound]
  refine { h with
    first := fun id => ?_, ids := ?_, edges := by rw [admittedEdges_method, h.edges], graph := ?_ }
  · rw [requestedNodes_method, List.find?_append, ← h.first]
    by_cases hid : m.id = id
    · rw [← hid, hfound, Option.some_or]
    · simp [hid]
  · rw [requestedNodes_method, List.map_append, List.map_singleton, eraseDups_concat,
      if_pos (List.contains_iff_mem.2 (h.contains_iff.1 hthere)), h.ids]
  · rw [foldl_serve_concat, serve_method, h.contains_eq, if_pos hthere, h.graph]

/-- A new method is the last node. -/
private theorem addMethod_of_new (h : Integral requests g) (hfound : g.nodes.lookup m.id = none) :
    Integral (requests ++ [.method m isExternal]) (g.serve (.method m isExternal)) := by
  have hnew : ¬g.contains m.id = true := by simp [contains, hfound]
  rw [serve, run_addNode_of_new hfound]
  refine
    { joined := fun e he => ?_, nodup := h.nodup, keys := h.keys, keyed := fun entry hentry => ?_, first := fun id => ?_,
      ids := ?_, nodup_ids := ?_, edges := by rw [admittedEdges_method, h.edges], graph := ?_ }
  · simp only [Indexed.contains_iff, List.map_append, List.mem_append]
    exact ⟨.inl (Indexed.contains_iff.1 (h.joined e he).1), .inl (Indexed.contains_iff.1 (h.joined e he).2)⟩
  · rcases List.mem_append.1 hentry with hentry | hentry
    · exact h.keyed entry hentry
    · rw [List.mem_singleton.1 hentry]
  · rw [requestedNodes_method, List.find?_append, ← h.first, List.lookup_append]
    by_cases hid : m.id = id
    · simp [hid]
    · simp [hid, List.lookup_cons, beq_eq_false_iff_ne.2 (Ne.symm hid)]
  · rw [List.map_append, List.map_singleton, requestedNodes_method, List.map_append, List.map_singleton,
      eraseDups_concat, if_neg (mt (h.contains_iff.2 ∘ List.contains_iff_mem.1) hnew), h.ids]
  · rw [List.map_append, List.map_singleton, ← List.concat_eq_append]
    exact h.nodup_ids.concat (Indexed.contains_iff.not.1 hnew)
  · rw [foldl_serve_concat, serve_method, h.contains_eq, if_neg hnew, ← h.graph]
    simp [Indexed.graph]

theorem addMethod (h : Integral requests g) (m : Method) (isExternal : Bool) :
    Integral (requests ++ [.method m isExternal]) (g.serve (.method m isExternal)) := by
  cases hfound : g.nodes.lookup m.id with
  | some node => exact h.addMethod_of_lookup hfound
  | none => exact h.addMethod_of_new hfound

/-- A call is refused if a method is missing. -/
private theorem addCall_of_missing (h : Integral requests g) (hmissing : ¬(g.contains source ∧ g.contains target)) :
    Integral (requests ++ [.call source target kind]) (g.serve (.call source target kind)) := by
  have hadmitted : admittedEdges [] (requests ++ [.call source target kind]) = admittedEdges [] requests := by
    rw [h.contains_iff, h.contains_iff] at hmissing
    rw [admittedEdges_concat, List.nil_append, admittedEdge, if_neg hmissing, Option.toList_none, List.append_nil]
  rw [serve, run_addEdge_of_missing hmissing]
  refine { h with
    first := by rw [requestedNodes_call]; exact h.first, ids := by rw [requestedNodes_call, h.ids],
    edges := by rw [hadmitted, h.edges], graph := ?_ }
  rw [foldl_serve_concat, serve_call, h.contains_eq, h.contains_eq, if_neg hmissing, h.graph]

/-- A call that is there changes nothing, and a new one is the last edge. -/
private theorem addCall_of_contains (h : Integral requests g) (hthere : g.contains source ∧ g.contains target) :
    Integral (requests ++ [.call source target kind]) (g.serve (.call source target kind)) := by
  have hadmitted : admittedEdges [] (requests ++ [.call source target kind]) =
      admittedEdges [] requests ++ [⟨source, target, kind⟩] := by
    rw [h.contains_iff, h.contains_iff] at hthere
    rw [admittedEdges_concat, List.nil_append, admittedEdge, if_pos hthere, Option.toList_some]
  have hgraph : (requests ++ [Request.call source target kind]).foldl CallGraph.serve {} =
      g.graph.insertEdge ⟨source, target, kind⟩ := by
    rw [foldl_serve_concat, serve_call, h.contains_eq, h.contains_eq, if_pos hthere, h.graph]
  have hadmits : (admittedEdges [] requests).contains ⟨source, target, kind⟩ ↔ (source, target, kind) ∈ g.keys := by
    rw [List.contains_iff_mem, h.mem_keys_iff, h.edges, List.mem_eraseDups]
  have hshows : g.graph.edges.contains ⟨source, target, kind⟩ ↔ (source, target, kind) ∈ g.keys := by
    rw [List.contains_iff_mem, h.mem_keys_iff, Indexed.graph]
  by_cases hkey : (source, target, kind) ∈ g.keys
  · rw [serve, run_addEdge_of_mem hthere hkey]
    refine { h with
      first := by rw [requestedNodes_call]; exact h.first, ids := by rw [requestedNodes_call, h.ids],
      edges := ?_, graph := ?_ }
    · rw [hadmitted, eraseDups_concat, if_pos (hadmits.2 hkey), h.edges]
    · rw [hgraph, insertEdge, if_pos (hshows.2 hkey)]
  · rw [serve, run_addEdge_of_new hthere hkey]
    refine { h with
      joined := fun e he => ?_, nodup := ?_, keys := fun key => ?_, first := by rw [requestedNodes_call]; exact h.first,
      ids := by rw [requestedNodes_call, h.ids], edges := ?_, graph := ?_ }
    · rcases List.mem_append.1 he with he | he
      · exact h.joined e he
      · rw [List.mem_singleton.1 he]
        exact hthere
    · rw [← List.concat_eq_append]
      exact h.nodup.concat (h.mem_keys_iff.not.1 hkey)
    · rw [Std.HashSet.mem_insert, h.keys]
      simp only [beq_iff_eq, List.mem_append, List.mem_singleton, or_and_right, exists_or, exists_eq_left, Edge.key,
        or_comm]
    · rw [hadmitted, eraseDups_concat, if_neg (hadmits.not.2 hkey), h.edges]
    · rw [hgraph, insertEdge, if_neg (hshows.not.2 hkey)]
      rfl

theorem addCall (h : Integral requests g) (source target : String) (kind : CallKind) :
    Integral (requests ++ [.call source target kind]) (g.serve (.call source target kind)) := by
  by_cases hthere : g.contains source ∧ g.contains target
  · exact h.addCall_of_contains hthere
  · exact h.addCall_of_missing hthere

end Integral

theorem integral_after (requests : List Request) : Integral requests (after requests) := by
  induction requests using List.reverseRecOn with
  | nil => exact .empty
  | append_singleton requests r ih =>
    rw [after, List.foldl_append, List.foldl_cons, List.foldl_nil]
    cases r with
    | method m isExternal => exact ih.addMethod m isExternal
    | call source target kind => exact ih.addCall source target kind

/-- After any requests the graph is integral, what is exported of it is the graph, and a call is refused exactly if one
of its methods is missing, and then the graph is as it was. -/
theorem integrity (requests : List Request) :
    Integral requests (after requests) ∧ ofRecords? (after requests).graph.records = some (after requests).graph ∧
      ∀ (g : Indexed) (source target : String) (kind : CallKind),
        if g.contains source ∧ g.contains target then
          ∃ answer g', (addEdge source target kind).run.run g = (.ok answer, g')
        else (addEdge source target kind).run.run g = (.error (.missingNode source target), g) := by
  refine ⟨integral_after requests, ofRecords?_records _, fun g source target kind => ?_⟩
  split
  · next hthere =>
    by_cases hkey : (source, target, kind) ∈ g.keys
    · exact ⟨_, _, run_addEdge_of_mem hthere hkey⟩
    · exact ⟨_, _, run_addEdge_of_new hthere hkey⟩
  · next hmissing => exact run_addEdge_of_missing hmissing

end Indexed

end CilProbe.CallGraph
