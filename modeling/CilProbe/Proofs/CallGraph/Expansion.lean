import CilProbe.Proofs.CallGraph.Search

/-!
# Which methods the search expands

The search shows a method for every node, the first one that it finds with its id.  Methods with one id need not be
alike: the calls of the graph are those of the methods that are shown, and of no other one with their ids
(`subgraph_explored`).

One level is `Front.expand`.  The methods found last are those that are shown with the depth of the level, and what they
call and the graph does not have yet is shown next (`nodes_of_expand`).  That the first method with an id is the one to
be expanded makes a difference where another one with this id has other calls or none.
-/

namespace CilProbe.CallSource

open CallGraph

variable {s : CallSource Id} {root : Method} {g : CallGraph}

/-- The methods shown in a graph around `root`, with the depths at which the search finds them.  Those that are nearer
than the bound are expanded, and no id that they call is further away than one call more. -/
structure Explored (s : CallSource Id) (root : Method) (maxDepth : Int) (g : CallGraph)
    (shown : List (Method × Nat)) : Prop where
  wellFormed : g.WellFormed
  nodes : g.nodes = shown.map fun p => nodeOf (fun m => !s.isLocal m) p.1
  root_mem : (root, 0) ∈ shown
  called : ∀ p ∈ shown, p = (root, 0) ∨
    ∃ q ∈ shown, (q.2 : Int) < maxDepth ∧ p.2 = q.2 + 1 ∧ ∃ kind, s.Calls q.1 p.1 kind
  nearest : ∀ p ∈ shown, (p.2 : Int) < maxDepth → ∀ t kind, s.Calls p.1 t kind →
    ∃ q ∈ shown, q.1.id = t.id ∧ q.2 ≤ p.2 + 1
  mem_edges_iff (e : Edge) : e ∈ g.edges ↔
    ∃ p ∈ shown, (p.2 : Int) < maxDepth ∧ ∃ t, s.Calls p.1 t e.kind ∧ e.source = p.1.id ∧ e.target = t.id

variable {shown : List (Method × Nat)} {maxDepth : Int}

/-- No two methods with the same id are shown. -/
theorem Explored.eq_of_id (h : s.Explored root maxDepth g shown) {p q : Method × Nat} (hp : p ∈ shown) (hq : q ∈ shown)
    (hid : p.1.id = q.1.id) : p = q := by
  have hnodup := h.wellFormed.nodup_ids
  rw [h.nodes, List.map_map] at hnodup
  exact List.inj_on_of_nodup_map hnodup hp hq hid

/-- Only a method that calls has edges. -/
theorem Explored.calls_of_mem_edges (h : s.Explored root maxDepth g shown) {p : Method × Nat} (hp : p ∈ shown)
    {e : Edge} (he : e ∈ g.edges) (hsource : e.source = p.1.id) :
    (p.2 : Int) < maxDepth ∧ ∃ t, s.Calls p.1 t e.kind ∧ e.target = t.id := by
  obtain ⟨q, hq, hdepth, t, hcall, hid, htarget⟩ := (h.mem_edges_iff e).1 he
  obtain rfl := h.eq_of_id hp hq (hsource.symm.trans hid)
  exact ⟨hdepth, t, hcall, htarget⟩

/-! ### Levels -/

/-- The methods that are found are those that are shown. -/
private theorem nodes_of_expand {m : Method} {calls : List Call} {found : List Method} {r : CallGraph × List Method}
    {before : List Node} (h : s.expand (g, found) (m, calls) = .ok r)
    (hg : g.nodes = before ++ found.map (nodeOf fun m => !s.isLocal m)) :
    r.1.nodes = before ++ r.2.map (nodeOf fun m => !s.isLocal m) := by
  induction calls generalizing g found with
  | nil =>
    cases h
    exact hg
  | cons c calls ih =>
    rw [expand_cons] at h
    cases hadd : addCall (!s.isLocal c.1) m g c with
    | error e => rw [hadd] at h; contradiction
    | ok g' =>
      rw [hadd] at h
      refine ih h ?_
      rw [nodes_of_addCall hadd, hg]
      split
      · rfl
      · rw [List.map_append, List.append_assoc]
        rfl

private theorem nodes_of_expandAll {ps : List (Method × List Call)} {found : List Method} {r : CallGraph × List Method}
    {before : List Node} (h : ps.foldlM s.expand (g, found) = .ok r)
    (hg : g.nodes = before ++ found.map (nodeOf fun m => !s.isLocal m)) :
    r.1.nodes = before ++ r.2.map (nodeOf fun m => !s.isLocal m) := by
  induction ps generalizing g found with
  | nil =>
    cases h
    exact hg
  | cons p ps ih =>
    rw [List.foldlM_cons] at h
    cases hexpand : s.expand (g, found) p with
    | error e => rw [hexpand] at h; contradiction
    | ok r' =>
      rw [hexpand] at h
      exact ih h (nodes_of_expand hexpand hg)

private theorem Explored.start (s : CallSource Id) (root : Method) :
    s.Explored root 0 (CallGraph.addNode {} root (!s.isLocal root)).2 [(root, 0)] where
  wellFormed := WellFormed.empty.addNode _ _
  nodes := rfl
  root_mem := by simp
  called p hp := .inl (List.mem_singleton.1 hp)
  nearest p _ hdepth := by omega
  mem_edges_iff e := by
    rw [edges_addNode]
    constructor
    · simp
    · rintro ⟨p, -, hdepth, -⟩
      omega

/-- What the search has shown when the methods `found` at depth `d` come next. -/
private structure Front (s : CallSource Id) (root : Method) (d : Nat) (g : CallGraph) (shown : List (Method × Nat))
    (found : List Method) : Prop where
  explored : s.Explored root d g shown
  depth_le : ∀ p ∈ shown, p.2 ≤ d
  mem_found_iff (m : Method) : m ∈ found ↔ (m, d) ∈ shown

private theorem Front.contains_iff {d : Nat} {found : List Method} (h : s.Front root d g shown found) {id : String} :
    g.contains id ↔ ∃ p ∈ shown, p.1.id = id := by
  rw [CallGraph.contains_iff, h.explored.nodes, List.map_map, List.mem_map]
  rfl

/-- Of the methods of the next level, those that are nearer are of the level before, and the furthest of them are those
found last. -/
private theorem Front.nearer {d : Nat} {found : List Method} (h : s.Front root d g shown found) (next : List Method)
    {p : Method × Nat} (hp : p ∈ shown ++ next.map (·, d + 1)) (hdepth : (p.2 : Int) < (d + 1 : Nat)) :
    p ∈ shown ∧ ((p.2 : Int) < d ∨ p.2 = d ∧ p.1 ∈ found) := by
  rcases List.mem_append.1 hp with hp | hp
  · rcases Nat.lt_or_ge p.2 d with hlt | hge
    · exact ⟨hp, .inl (Int.ofNat_lt.2 hlt)⟩
    · have hpd : p.2 = d := Nat.le_antisymm (h.depth_le p hp) hge
      exact ⟨hp, .inr ⟨hpd, (h.mem_found_iff p.1).2 (hpd ▸ hp)⟩⟩
  · obtain ⟨m, -, rfl⟩ := List.mem_map.1 hp
    exact absurd hdepth (Int.lt_irrefl _)

private theorem Front.explored_expand {d : Nat} {found next : List Method} {g' : CallGraph}
    (h : s.Front root d g shown found) (hr : (Id.run (s.withCalls found)).foldlM s.expand (g, []) = .ok (g', next))
    (hnext : s.Expanded g (flatten (Id.run (s.withCalls found))) g' next) :
    s.Explored root (d + 1 : Nat) g' (shown ++ next.map (·, d + 1)) where
  wellFormed := hnext.grown.wellFormed
  nodes := by
    rw [nodes_of_expandAll hr (List.append_nil _).symm, h.explored.nodes, List.map_append, List.map_map]
    rfl
  root_mem := List.mem_append_left _ h.explored.root_mem
  called p hp := by
    rcases List.mem_append.1 hp with hp | hp
    · rcases h.explored.called p hp with hroot | ⟨q, hq, hdepth, hcall⟩
      · exact .inl hroot
      · exact .inr ⟨q, List.mem_append_left _ hq, by omega, hcall⟩
    · obtain ⟨t, ht, rfl⟩ := List.mem_map.1 hp
      obtain ⟨-, ⟨m, t', kind⟩, hc, rfl⟩ := hnext.mem_found t ht
      obtain ⟨hm, hcall⟩ := mem_flatten_withCalls.1 hc
      have hshown : (m, d) ∈ shown := (h.mem_found_iff m).1 hm
      exact .inr ⟨(m, d), List.mem_append_left _ hshown, Int.ofNat_lt.2 d.lt_succ_self, rfl, kind, hcall⟩
  nearest p hp hdepth t kind hcall := by
    obtain ⟨hold, hlt | ⟨hpd, hfound⟩⟩ := h.nearer next hp hdepth
    · obtain ⟨q, hq, hnear⟩ := h.explored.nearest p hold hlt t kind hcall
      exact ⟨q, List.mem_append_left _ hq, hnear⟩
    · by_cases hnew : g.contains t.id
      · obtain ⟨q, hq, hid⟩ := h.contains_iff.1 hnew
        exact ⟨q, List.mem_append_left _ hq, hid, hpd ▸ Nat.le_succ_of_le (h.depth_le q hq)⟩
      · obtain ⟨t', ht', hid⟩ := hnext.found_of_new (p.1, t, kind) (mem_flatten_withCalls.2 ⟨hfound, hcall⟩) hnew
        exact ⟨(t', d + 1), List.mem_append_right _ (List.mem_map.2 ⟨t', ht', rfl⟩), hid, hpd ▸ Nat.le_refl _⟩
  mem_edges_iff e := by
    rw [hnext.grown.mem_edges_iff, h.explored.mem_edges_iff]
    constructor
    · rintro (⟨p, hp, hdepth, hcall⟩ | ⟨⟨m, t, kind⟩, hc, rfl⟩)
      · exact ⟨p, List.mem_append_left _ hp, by omega, hcall⟩
      · obtain ⟨hm, hcall⟩ := mem_flatten_withCalls.1 hc
        have hshown : (m, d) ∈ shown := (h.mem_found_iff m).1 hm
        exact ⟨(m, d), List.mem_append_left _ hshown, Int.ofNat_lt.2 d.lt_succ_self, t, hcall, rfl, rfl⟩
    · rintro ⟨p, hp, hdepth, t, hcall, hsource, htarget⟩
      obtain ⟨hold, hlt | ⟨-, hfound⟩⟩ := h.nearer next hp hdepth
      · exact .inl ⟨p, hold, hlt, t, hcall, hsource, htarget⟩
      · refine .inr ⟨(p.1, t, e.kind), mem_flatten_withCalls.2 ⟨hfound, hcall⟩, ?_⟩
        rw [edgeOf, ← hsource, ← htarget]

private theorem Front.expand {d : Nat} {found next : List Method} {g' : CallGraph} (h : s.Front root d g shown found)
    (hr : (Id.run (s.withCalls found)).foldlM s.expand (g, []) = .ok (g', next))
    (hnext : s.Expanded g (flatten (Id.run (s.withCalls found))) g' next) :
    s.Front root (d + 1) g' (shown ++ next.map (·, d + 1)) next where
  explored := h.explored_expand hr hnext
  depth_le p hp := by
    rcases List.mem_append.1 hp with hp | hp
    · exact Nat.le_succ_of_le (h.depth_le p hp)
    · obtain ⟨m, -, rfl⟩ := List.mem_map.1 hp
      exact Nat.le_refl _
  mem_found_iff m := by
    have hnew : (m, d + 1) ∉ shown := fun hm => Nat.not_succ_le_self d (h.depth_le _ hm)
    simp [hnew]

private theorem Front.explore (depth : Nat) {d : Nat} {found : List Method} (h : s.Front root d g shown found) :
    ∃ g' shown' found', Id.run (s.explore depth g found) = .ok g' ∧ s.Front root (d + depth) g' shown' found' := by
  induction depth generalizing d g shown found with
  | zero => exact ⟨g, shown, found, by rw [CallSource.explore]; rfl, h⟩
  | succ depth ih =>
    have hcallers : ∀ p ∈ Id.run (s.withCalls found), g.contains p.1.id := by
      rw [withCalls_id]
      intro p hp
      obtain ⟨m, hm, rfl⟩ := List.mem_map.1 hp
      exact h.contains_iff.2 ⟨(m, d), (h.mem_found_iff m).1 hm, rfl⟩
    obtain ⟨r, hr, hnext⟩ := s.exists_expand_eq_ok h.explored.wellFormed hcallers
    obtain ⟨g', shown', found', hg', h'⟩ := ih (h.expand hr hnext)
    exact ⟨g', shown', found', (explore_succ hr).trans hg', by rwa [Nat.add_assoc, Nat.add_comm 1] at h'⟩

/-- A negative bound is like zero. -/
private theorem Explored.of_toNat (h : s.Explored root maxDepth.toNat g shown) :
    s.Explored root maxDepth g shown := by
  have hbound (n : Nat) : (n : Int) < maxDepth.toNat ↔ (n : Int) < maxDepth := by omega
  obtain ⟨hwf, hnodes, hroot, hcalled, hnearest, hedges⟩ := h
  simp only [hbound] at hcalled hnearest hedges
  exact ⟨hwf, hnodes, hroot, hcalled, hnearest, hedges⟩

/-- The graph around a method shows methods, one for every id, and has the calls of those that are nearer than the
bound. -/
theorem subgraph_explored (s : CallSource Id) (root : Method) (maxDepth : Int) :
    ∃ shown, s.Explored root maxDepth (Id.run (s.subgraph root maxDepth)) shown := by
  have hstart : s.Front root 0 (CallGraph.addNode {} root (!s.isLocal root)).2 [(root, 0)] [root] :=
    ⟨.start s root, by simp, by simp⟩
  obtain ⟨g, shown, found, hg, h⟩ := hstart.explore maxDepth.toNat
  have hsubgraph : Id.run (s.subgraph root maxDepth) = (Id.run (s.trySubgraph root maxDepth)).toOption.getD {} := rfl
  rw [hsubgraph, trySubgraph, hg]
  rw [Nat.zero_add] at h
  exact ⟨shown, h.explored.of_toNat⟩

end CilProbe.CallSource
