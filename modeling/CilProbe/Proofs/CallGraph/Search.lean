import CilProbe.Proofs.CallGraph.Build
import Mathlib.Data.Nat.Find

/-!
# The search finds shortest distances

Calls lead from a root to methods, and an id is as far away as the shortest path to a method with that id
(`IsDistance`).  After `d` levels the graph has the ids up to distance `d`, and the methods found last are those at
distance `d` (`Level`).

One level is `Level.expand`.  Methods with one id have to be alike for it (`Coherent`): the search expands only the
first method that it finds with an id, and that has to stand for all of them.  A callee then is one call further away
than its caller, unless the graph has it: a shorter way would have brought it into the graph before.
-/

namespace CilProbe.CallSource

open CallGraph

variable {s : CallSource Id} {root : Method}

/-- The code of `m` calls `t`, in the way that `kind` says. -/
def Calls (s : CallSource Id) (m t : Method) (kind : CallKind) : Prop :=
  ∃ listing line, Id.run (s.listing? m) = some listing ∧ line ∈ listing.lines ∧
    CallKind.ofOpcode? line.opcode.code = some kind ∧ line.operand = .resolved (.method t)

/-- So many calls lead from `root` to a method. -/
inductive Path (s : CallSource Id) (root : Method) : Nat → Method → Prop
  | root : Path s root 0 root
  | call {n : Nat} {m t : Method} {kind : CallKind} : Path s root n m → s.Calls m t kind → Path s root (n + 1) t

/-- The shortest path to a method with the id has `n` calls. -/
def IsDistance (s : CallSource Id) (root : Method) (id : String) (n : Nat) : Prop :=
  (∃ m, s.Path root n m ∧ m.id = id) ∧ ∀ k m, s.Path root k m → m.id = id → n ≤ k

def Reachable (s : CallSource Id) (root m : Method) : Prop := ∃ n, s.Path root n m

/-- Reachable methods with the same id call the same and are in the same assembly. -/
structure Coherent (s : CallSource Id) (root : Method) : Prop where
  calls {m m' : Method} : s.Reachable root m → s.Reachable root m' → m.id = m'.id →
    ∀ t kind, s.Calls m t kind → s.Calls m' t kind
  assembly {m m' : Method} : s.Reachable root m → s.Reachable root m' → m.id = m'.id → m.assembly = m'.assembly

/-! ### Distances -/

theorem mem_calls {m t : Method} {kind : CallKind} : (t, kind) ∈ Id.run (s.calls m) ↔ s.Calls m t kind := by
  have hcall (line : Line Reference) : callOf line = some (t, kind) ↔
      CallKind.ofOpcode? line.opcode.code = some kind ∧ line.operand = .resolved (.method t) := by
    rw [callOf]
    split
    · next hkind htarget => simp [hkind, htarget, and_comm]
    · next hno =>
      simp only [reduceCtorEq, false_iff, not_and]
      exact fun hkind htarget => hno kind t hkind htarget
  show (t, kind) ∈ callsOf (Id.run (s.listing? m)) ↔ _
  rw [callsOf, Calls]
  cases Id.run (s.listing? m) with
  | none => simp
  | some listing => simp [hcall]

theorem exists_isDistance {n : Nat} {m : Method} (h : s.Path root n m) : ∃ k ≤ n, s.IsDistance root m.id k := by
  classical
  have hex : ∃ k m', s.Path root k m' ∧ m'.id = m.id := ⟨n, m, h, rfl⟩
  refine ⟨Nat.find hex, Nat.find_min' hex ⟨m, h, rfl⟩, Nat.find_spec hex, ?_⟩
  intro k m' hm' hid
  exact Nat.find_min' hex ⟨m', hm', hid⟩

private theorem IsDistance.unique {id : String} {n k : Nat} (hn : s.IsDistance root id n)
    (hk : s.IsDistance root id k) : n = k := by
  obtain ⟨⟨m, hm, hid⟩, hmin⟩ := hn
  obtain ⟨⟨m', hm', hid'⟩, hmin'⟩ := hk
  exact Nat.le_antisymm (hmin k m' hm' hid') (hmin' n m hm hid)

theorem isDistance_zero {id : String} : s.IsDistance root id 0 ↔ id = root.id := by
  constructor
  · rintro ⟨⟨m, hm, rfl⟩, -⟩
    cases hm
    rfl
  · rintro rfl
    exact ⟨⟨root, .root, rfl⟩, fun _ _ _ _ => Nat.zero_le _⟩

/-- What is one call further away than `d` is called by a method at distance `d`. -/
private theorem IsDistance.caller (hs : s.Coherent root) {id : String} {d : Nat} (h : s.IsDistance root id (d + 1)) :
    ∃ m t kind, s.Path root d m ∧ s.IsDistance root m.id d ∧ s.Calls m t kind ∧ t.id = id := by
  obtain ⟨⟨t, ht, rfl⟩, hmin⟩ := h
  cases ht with
  | @call _ m _ kind hm hcall =>
    obtain ⟨k, hk, hdist⟩ := exists_isDistance hm
    obtain ⟨m', hm', hid⟩ := hdist.1
    -- A method with the caller's id calls `t` as well, so the caller cannot be nearer than `d`.
    have hcall' := hs.calls ⟨d, hm⟩ ⟨k, hm'⟩ hid.symm t kind hcall
    have hle : d + 1 ≤ k + 1 := hmin (k + 1) t (.call hm' hcall') rfl
    have hkd : k = d := by omega
    exact ⟨m, t, kind, hm, hkd ▸ hdist, hcall, rfl⟩

/-! ### Levels -/

/-- The edge is a call by a method that is nearer than the bound. -/
def CallsWithin (s : CallSource Id) (root : Method) (bound : Int) (e : Edge) : Prop :=
  ∃ m t n, s.Reachable root m ∧ s.IsDistance root m.id n ∧ (n : Int) < bound ∧ s.Calls m t e.kind ∧
    e.source = m.id ∧ e.target = t.id

/-- The search has found what is up to `d` calls away, and `found` are the methods that are `d` calls away. -/
structure Level (s : CallSource Id) (root : Method) (d : Nat) (g : CallGraph) (found : List Method) : Prop where
  wellFormed : g.WellFormed
  contains_iff (id : String) : g.contains id ↔ ∃ n ≤ d, s.IsDistance root id n
  mem_nodes : ∀ node ∈ g.nodes, ∃ m, s.Reachable root m ∧ node = nodeOf (fun m => !s.isLocal m) m
  mem_edges_iff (e : Edge) : e ∈ g.edges ↔ s.CallsWithin root d e
  mem_found : ∀ m ∈ found, s.Path root d m ∧ s.IsDistance root m.id d
  found_of_isDistance : ∀ id, s.IsDistance root id d → ∃ m ∈ found, m.id = id

private theorem Level.start (s : CallSource Id) (root : Method) :
    s.Level root 0 (CallGraph.addNode {} root (!s.isLocal root)).2 [root] where
  wellFormed := WellFormed.empty.addNode _ _
  contains_iff id := by
    rw [contains_addNode]
    constructor
    · rintro (h | h)
      · simp [contains, node?] at h
      · exact ⟨0, Nat.le_refl 0, isDistance_zero.2 h⟩
    · rintro ⟨n, hn, h⟩
      obtain rfl : n = 0 := by omega
      exact Or.inr (isDistance_zero.1 h)
  mem_nodes node hnode := by
    rcases mem_nodes_addNode hnode with h | rfl
    · simp at h
    · exact ⟨root, ⟨0, .root⟩, rfl⟩
  mem_edges_iff e := by
    rw [edges_addNode]
    constructor
    · simp
    · rintro ⟨m, t, n, -, -, hn, -⟩
      omega
  mem_found m hm := by
    rw [List.mem_singleton] at hm
    exact ⟨hm ▸ .root, isDistance_zero.2 (by rw [hm])⟩
  found_of_isDistance id h := ⟨root, by simp, (isDistance_zero.1 h).symm⟩

theorem withCalls_id (s : CallSource Id) (ms : List Method) :
    Id.run (s.withCalls ms) = ms.map fun m => (m, Id.run (s.calls m)) := by
  induction ms with
  | nil => rfl
  | cons m ms ih => rw [List.map_cons, ← ih]; rfl

theorem mem_flatten_withCalls {ms : List Method} {c : Method × Call} :
    c ∈ flatten (Id.run (s.withCalls ms)) ↔ c.1 ∈ ms ∧ s.Calls c.1 c.2.1 c.2.2 := by
  obtain ⟨m, t, kind⟩ := c
  rw [withCalls_id, flatten, ← mem_calls]
  simp only [List.flatMap_map, List.mem_flatMap, List.mem_map, Prod.mk.injEq]
  constructor
  · rintro ⟨m', hm', c, hc, rfl, rfl⟩
    exact ⟨hm', hc⟩
  · rintro ⟨hm, hc⟩
    exact ⟨m, hm, (t, kind), hc, rfl, rfl⟩

private theorem Level.contains_of_found {d : Nat} {g : CallGraph} {found : List Method} (h : s.Level root d g found)
    {m : Method} (hm : m ∈ found) : g.contains m.id :=
  (h.contains_iff m.id).2 ⟨d, Nat.le_refl d, (h.mem_found m hm).2⟩

/-- The call of a method at distance `d` is made by a method found last, the one with the same id. -/
private theorem Level.exists_call (hs : s.Coherent root) {d : Nat} {g : CallGraph} {found : List Method}
    (h : s.Level root d g found) {m t : Method} {kind : CallKind} (hm : s.Reachable root m)
    (hdist : s.IsDistance root m.id d) (hcall : s.Calls m t kind) :
    ∃ m', m'.id = m.id ∧ (m', t, kind) ∈ flatten (Id.run (s.withCalls found)) := by
  obtain ⟨m', hm', hid⟩ := h.found_of_isDistance m.id hdist
  have hcall' := hs.calls hm ⟨d, (h.mem_found m' hm').1⟩ hid.symm t kind hcall
  exact ⟨m', hid, mem_flatten_withCalls.2 ⟨hm', hcall'⟩⟩

/-- The methods found last, expanded, make the next level. -/
private theorem Level.expand (hs : s.Coherent root) {d : Nat} {g g' : CallGraph} {found next : List Method}
    (h : s.Level root d g found) (hnext : s.Expanded g (flatten (Id.run (s.withCalls found))) g' next) :
    s.Level root (d + 1) g' next where
  wellFormed := hnext.grown.wellFormed
  contains_iff id := by
    rw [hnext.grown.contains_iff]
    constructor
    · rintro (hold | ⟨⟨m, t, kind⟩, hc, rfl⟩)
      · obtain ⟨n, hn, hdist⟩ := (h.contains_iff id).1 hold
        exact ⟨n, by omega, hdist⟩
      · obtain ⟨hm, hcall⟩ := mem_flatten_withCalls.1 hc
        exact exists_isDistance (.call (h.mem_found m hm).1 hcall)
    · rintro ⟨n, hn, hdist⟩
      rcases Nat.lt_or_ge d n with hlt | hle
      · obtain rfl : n = d + 1 := by omega
        obtain ⟨m, t, kind, hm, hdist', hcall, rfl⟩ := hdist.caller hs
        obtain ⟨m', -, hc⟩ := h.exists_call hs ⟨d, hm⟩ hdist' hcall
        exact Or.inr ⟨(m', t, kind), hc, rfl⟩
      · exact Or.inl ((h.contains_iff id).2 ⟨n, hle, hdist⟩)
  mem_nodes node hnode := by
    rcases hnext.grown.mem_nodes node hnode with hold | ⟨⟨m, t, kind⟩, hc, rfl⟩
    · exact h.mem_nodes node hold
    · obtain ⟨hm, hcall⟩ := mem_flatten_withCalls.1 hc
      exact ⟨t, ⟨d + 1, .call (h.mem_found m hm).1 hcall⟩, rfl⟩
  mem_edges_iff e := by
    rw [hnext.grown.mem_edges_iff, h.mem_edges_iff]
    constructor
    · rintro (⟨m, t, n, hm, hdist, hn, hrest⟩ | ⟨⟨m, t, kind⟩, hc, rfl⟩)
      · exact ⟨m, t, n, hm, hdist, by omega, hrest⟩
      · obtain ⟨hm, hcall⟩ := mem_flatten_withCalls.1 hc
        obtain ⟨hpath, hdist⟩ := h.mem_found m hm
        exact ⟨m, t, d, ⟨d, hpath⟩, hdist, by omega, hcall, rfl, rfl⟩
    · rintro ⟨m, t, n, hm, hdist, hn, hcall, hsource, htarget⟩
      rcases Nat.lt_or_ge n d with hlt | hge
      · exact Or.inl ⟨m, t, n, hm, hdist, by omega, hcall, hsource, htarget⟩
      · obtain rfl : n = d := by omega
        obtain ⟨m', hid, hc⟩ := h.exists_call hs hm hdist hcall
        refine Or.inr ⟨(m', t, e.kind), hc, ?_⟩
        rw [edgeOf, hid, ← hsource, ← htarget]
  mem_found t ht := by
    obtain ⟨hnew, ⟨m, t', kind⟩, hc, rfl⟩ := hnext.mem_found t ht
    obtain ⟨hm, hcall⟩ := mem_flatten_withCalls.1 hc
    have hpath : s.Path root (d + 1) t' := .call (h.mem_found m hm).1 hcall
    obtain ⟨k, hk, hdist⟩ := exists_isDistance hpath
    have hkd : ¬k ≤ d := fun hle => hnew ((h.contains_iff t'.id).2 ⟨k, hle, hdist⟩)
    obtain rfl : k = d + 1 := by omega
    exact ⟨hpath, hdist⟩
  found_of_isDistance id hdist := by
    obtain ⟨m, t, kind, hm, hdist', hcall, rfl⟩ := hdist.caller hs
    obtain ⟨m', -, hc⟩ := h.exists_call hs ⟨d, hm⟩ hdist' hcall
    refine hnext.found_of_new (m', t, kind) hc ?_
    intro hold
    obtain ⟨k, hk, hdist''⟩ := (h.contains_iff t.id).1 hold
    have := hdist.unique hdist''
    omega

/-- A level that can be expanded is followed by the next one. -/
theorem explore_succ {depth : Nat} {g : CallGraph} {found : List Method} {r : CallGraph × List Method}
    (h : (Id.run (s.withCalls found)).foldlM s.expand (g, []) = .ok r) :
    Id.run (s.explore (depth + 1) g found) = Id.run (s.explore depth r.1 r.2) := by
  cases found with
  | nil =>
    cases h
    cases depth <;> rfl
  | cons m ms =>
    show proceed (s.explore depth) ((Id.run (s.withCalls (m :: ms))).foldlM s.expand (g, [])) = _
    rw [h]
    rfl

private theorem Level.explore (hs : s.Coherent root) (depth : Nat) {d : Nat} {g : CallGraph} {found : List Method}
    (h : s.Level root d g found) :
    ∃ g' found', Id.run (s.explore depth g found) = .ok g' ∧ s.Level root (d + depth) g' found' := by
  induction depth generalizing d g found with
  | zero => exact ⟨g, found, by rw [CallSource.explore]; rfl, h⟩
  | succ depth ih =>
    have hcallers : ∀ p ∈ Id.run (s.withCalls found), g.contains p.1.id := by
      rw [withCalls_id]
      intro p hp
      obtain ⟨m, hm, rfl⟩ := List.mem_map.1 hp
      exact h.contains_of_found hm
    obtain ⟨r, hr, hnext⟩ := s.exists_expand_eq_ok h.wellFormed hcallers
    obtain ⟨g', found', hg', h'⟩ := ih (h.expand hs hnext)
    exact ⟨g', found', (explore_succ hr).trans hg', by rwa [Nat.add_assoc, Nat.add_comm 1] at h'⟩

/-! ### The graph around a method -/

/-- The graph has what is up to `maxDepth` calls away from `root`, and the calls of what is nearer. -/
structure ReachesTo (s : CallSource Id) (root : Method) (maxDepth : Int) (g : CallGraph) : Prop where
  nodup_ids : (g.nodes.map (·.id)).Nodup
  mem_ids (id : String) :
    id ∈ g.nodes.map (·.id) ↔ id = root.id ∨ ∃ n, s.IsDistance root id n ∧ (n : Int) ≤ maxDepth
  nodup_edges : g.edges.Nodup
  mem_edges (e : Edge) : e ∈ g.edges ↔ s.CallsWithin root maxDepth e
  isExternal_iff : ∀ node ∈ g.nodes, ∀ m, s.Reachable root m → m.id = node.id →
    (node.isExternal ↔ m.assembly ≠ s.name)

private theorem Level.reachesTo (hs : s.Coherent root) {maxDepth : Int} {g : CallGraph} {found : List Method}
    (h : s.Level root maxDepth.toNat g found) : s.ReachesTo root maxDepth g where
  nodup_ids := h.wellFormed.nodup_ids
  mem_ids id := by
    rw [← CallGraph.contains_iff, h.contains_iff]
    constructor
    · rintro ⟨n, hn, hdist⟩
      cases n with
      | zero => exact Or.inl (isDistance_zero.1 hdist)
      | succ n => exact Or.inr ⟨n + 1, hdist, by omega⟩
    · rintro (rfl | ⟨n, hdist, hn⟩)
      · exact ⟨0, Nat.zero_le _, isDistance_zero.2 rfl⟩
      · exact ⟨n, by omega, hdist⟩
  nodup_edges := h.wellFormed.nodup_edges
  mem_edges e := by
    rw [h.mem_edges_iff]
    constructor <;>
    · rintro ⟨m, t, n, hm, hdist, hn, hrest⟩
      exact ⟨m, t, n, hm, hdist, by omega, hrest⟩
  isExternal_iff node hnode m hm hid := by
    obtain ⟨m', hm', rfl⟩ := h.mem_nodes node hnode
    rw [hs.assembly hm hm' hid]
    simp [nodeOf, isLocal]

theorem reachesTo_subgraph (hs : s.Coherent root) (maxDepth : Int) :
    s.ReachesTo root maxDepth (Id.run (s.subgraph root maxDepth)) := by
  obtain ⟨g, found, hg, h⟩ := (Level.start s root).explore hs maxDepth.toNat
  rw [Nat.zero_add] at h
  have hsubgraph : Id.run (s.subgraph root maxDepth) = (Id.run (s.trySubgraph root maxDepth)).toOption.getD {} := rfl
  rw [hsubgraph, trySubgraph, hg]
  exact h.reachesTo hs

end CilProbe.CallSource
