import CilProbe.Proofs.CallGraph.Search

/-!
# The search as a loop over a queue

The search around a method can also be run with a queue: the first method of the queue is taken out and, if it is
nearer than the bound, expanded; callees whose ids are not marked are marked and join the end of the queue (`turn`).
The queue then holds what is left of one level and behind it what was found of the next, so that the loop does what
the search does level by level (`exists_turns_eq`).

So the loop ends for every loader, root and bound, without a refused edge, and its graph is the one around the method
(`bounded_search`).
-/

namespace CilProbe.CallSource

open CallGraph

/-- The state of the loop: the graph, the ids that are marked, and the methods that wait, with their depths. -/
structure Search where
  graph : CallGraph
  marked : List String
  queue : List (Method × Nat)

variable {s : CallSource Id}

def Search.start (s : CallSource Id) (root : Method) : Search where
  graph := (CallGraph.addNode {} root (!s.isLocal root)).2
  marked := [root.id]
  queue := [(root, 0)]

/-- A call of a method that has been taken out of the queue. -/
def visit (s : CallSource Id) (m : Method) (depth : Nat) (x : Search) (c : Call) : Except EdgeError Search := do
  let g ← addCall (!s.isLocal c.1) m x.graph c
  if x.marked.contains c.1.id then return { x with graph := g }
  else return ⟨g, x.marked ++ [c.1.id], x.queue ++ [(c.1, depth + 1)]⟩

/-- One turn of the loop. Nothing happens once the queue is empty. -/
def turn (s : CallSource Id) (maxDepth : Int) (x : Search) : Except EdgeError Search :=
  match x.queue with
  | [] => .ok x
  | (m, depth) :: queue =>
    if maxDepth ≤ depth then .ok { x with queue := queue }
    else (Id.run (s.calls m)).foldlM (s.visit m depth) { x with queue := queue }

def turns (s : CallSource Id) (maxDepth : Int) : Nat → Search → Except EdgeError Search
  | 0, x => .ok x
  | n + 1, x => do s.turns maxDepth n (← s.turn maxDepth x)

private theorem turns_add {maxDepth : Int} {n k : Nat} {x y : Search} (h : s.turns maxDepth n x = .ok y) :
    s.turns maxDepth (n + k) x = s.turns maxDepth k y := by
  induction n generalizing x with
  | zero =>
    cases h
    rw [Nat.zero_add]
  | succ n ih =>
    rw [Nat.add_right_comm, turns]
    rw [turns] at h
    cases hx : s.turn maxDepth x with
    | error e => rw [hx] at h; contradiction
    | ok x' =>
      rw [hx] at h
      exact ih h

/-- Methods as they wait in the queue. -/
private def waiting (depth : Nat) (ms : List Method) : List (Method × Nat) := ms.map (·, depth)

private def Marks (marked : List String) (g : CallGraph) : Prop := ∀ id, id ∈ marked ↔ g.contains id

/-- Visiting the calls of a method is expanding it, with the callees that are new at the end of the queue. -/
private theorem visit_calls {m : Method} {calls : List Call} {g : CallGraph} {found : List Method}
    {r : CallGraph × List Method} (h : s.expand (g, found) (m, calls) = .ok r) (depth : Nat)
    (before : List (Method × Nat)) {marked : List String} (hmarked : Marks marked g) :
    ∃ marked', Marks marked' r.1 ∧ calls.foldlM (s.visit m depth) ⟨g, marked, before ++ waiting (depth + 1) found⟩ =
      .ok ⟨r.1, marked', before ++ waiting (depth + 1) r.2⟩ := by
  induction calls generalizing g found marked with
  | nil =>
    cases h
    exact ⟨marked, hmarked, rfl⟩
  | cons c calls ih =>
    rw [expand_cons] at h
    cases hadd : addCall (!s.isLocal c.1) m g c with
    | error e => rw [hadd] at h; contradiction
    | ok g' =>
      rw [hadd] at h
      have hg' := contains_of_addCall hadd
      rw [List.foldlM_cons, visit, hadd]
      by_cases hold : g.contains c.1.id
      · have hc : marked.contains c.1.id = true := List.contains_iff_mem.2 ((hmarked _).2 hold)
        have hmarked' : Marks marked g' := by
          intro id
          rw [hmarked, hg', or_iff_left_of_imp]
          rintro rfl
          exact hold
        rw [if_pos hold] at h
        simp only [hc, if_true]
        exact ih h hmarked'
      · have hc : ¬marked.contains c.1.id = true := fun hc => hold ((hmarked _).1 (List.contains_iff_mem.1 hc))
        have hmarked' : Marks (marked ++ [c.1.id]) g' := by
          intro id
          rw [List.mem_append, List.mem_singleton, hmarked, hg']
        rw [if_neg hold] at h
        obtain ⟨marked'', hmarked'', hcalls⟩ := ih h hmarked'
        refine ⟨marked'', hmarked'', ?_⟩
        rw [waiting, List.map_append, List.map_singleton, ← List.append_assoc] at hcalls
        simp only [hc]
        exact hcalls

/-- The turns that take a level out of the queue expand it, if it is nearer than the bound. -/
private theorem turns_level {maxDepth : Int} {depth : Nat} (hdepth : (depth : Int) < maxDepth) {ms found : List Method}
    {g : CallGraph} {r : CallGraph × List Method}
    (h : (Id.run (s.withCalls ms)).foldlM s.expand (g, found) = .ok r) {marked : List String}
    (hmarked : Marks marked g) :
    ∃ marked', Marks marked' r.1 ∧
      s.turns maxDepth ms.length ⟨g, marked, waiting depth ms ++ waiting (depth + 1) found⟩ =
        .ok ⟨r.1, marked', waiting (depth + 1) r.2⟩ := by
  induction ms generalizing g found marked with
  | nil =>
    cases h
    exact ⟨marked, hmarked, rfl⟩
  | cons m ms ih =>
    have hm : s.expand (g, found) (m, Id.run (s.calls m)) >>= (Id.run (s.withCalls ms)).foldlM s.expand = .ok r := h
    cases hexpand : s.expand (g, found) (m, Id.run (s.calls m)) with
    | error e => rw [hexpand] at hm; contradiction
    | ok r' =>
      rw [hexpand] at hm
      obtain ⟨marked', hmarked', hvisit⟩ := visit_calls hexpand depth (waiting depth ms) hmarked
      obtain ⟨marked'', hmarked'', hturns⟩ := ih hm hmarked'
      have hturn : s.turn maxDepth ⟨g, marked, waiting depth (m :: ms) ++ waiting (depth + 1) found⟩ =
          .ok ⟨r'.1, marked', waiting depth ms ++ waiting (depth + 1) r'.2⟩ := by
        show (if maxDepth ≤ (depth : Int) then _ else _) = _
        rw [if_neg (by omega)]
        exact hvisit
      refine ⟨marked'', hmarked'', ?_⟩
      rw [List.length_cons, turns, hturn]
      exact hturns

/-- What is not nearer than the bound only leaves the queue. -/
private theorem turns_beyond {maxDepth : Int} {depth : Nat} (hdepth : maxDepth ≤ depth) (ms : List Method)
    (g : CallGraph) (marked : List String) :
    s.turns maxDepth ms.length ⟨g, marked, waiting depth ms⟩ = .ok ⟨g, marked, []⟩ := by
  induction ms with
  | nil => rfl
  | cons m ms ih =>
    have hturn : s.turn maxDepth ⟨g, marked, waiting depth (m :: ms)⟩ = .ok ⟨g, marked, waiting depth ms⟩ :=
      if_pos hdepth
    rw [List.length_cons, turns, hturn]
    exact ih

private theorem exists_turns_eq {maxDepth : Int} (levels : Nat) {depth : Nat}
    (hlevels : maxDepth.toNat = depth + levels) {g g' : CallGraph} {found : List Method}
    (h : Id.run (s.explore levels g found) = .ok g') {marked : List String} (hmarked : Marks marked g) :
    ∃ n marked', s.turns maxDepth n ⟨g, marked, waiting depth found⟩ = .ok ⟨g', marked', []⟩ := by
  induction levels generalizing depth g found marked with
  | zero =>
    have hg : Id.run (s.explore 0 g found) = .ok g := by rw [explore]; rfl
    rw [hg] at h
    cases h
    have hdepth : maxDepth ≤ depth := by omega
    exact ⟨found.length, marked, turns_beyond hdepth found g' marked⟩
  | succ levels ih =>
    cases hexpand : (Id.run (s.withCalls found)).foldlM s.expand (g, []) with
    | error e =>
      cases found with
      | nil => cases hexpand
      | cons m ms =>
        have herror : Id.run (s.explore (levels + 1) g (m :: ms)) = .error e := by
          show proceed (s.explore levels) ((Id.run (s.withCalls (m :: ms))).foldlM s.expand (g, [])) = _
          rw [hexpand]
          rfl
        rw [herror] at h
        contradiction
    | ok r =>
      rw [explore_succ hexpand] at h
      have hdepth : (depth : Int) < maxDepth := by omega
      have hlevels' : maxDepth.toNat = depth + 1 + levels := by omega
      obtain ⟨marked', hmarked', hlevel⟩ := turns_level hdepth hexpand hmarked
      obtain ⟨n, marked'', hturns⟩ := ih hlevels' h hmarked'
      refine ⟨found.length + n, marked'', ?_⟩
      rw [← hturns]
      exact turns_add (by simpa [waiting] using hlevel)

/-- The loop ends with the graph around the method, and that has what is up to `maxDepth` calls away. -/
theorem bounded_search {root : Method} (hs : s.Coherent root) (maxDepth : Int) :
    (∃ n marked, s.turns maxDepth n (.start s root) = .ok ⟨Id.run (s.subgraph root maxDepth), marked, []⟩) ∧
      s.ReachesTo root maxDepth (Id.run (s.subgraph root maxDepth)) := by
  refine ⟨?_, reachesTo_subgraph hs maxDepth⟩
  have hmarked : Marks [root.id] (CallGraph.addNode {} root (!s.isLocal root)).2 := by
    intro id
    rw [contains_addNode, List.mem_singleton]
    simp [contains, node?]
  exact exists_turns_eq maxDepth.toNat (Nat.zero_add _).symm (s.trySubgraph_eq root maxDepth) hmarked

/-! ### Two methods that call each other -/

private def ping : Method := { declaringType := "Game", name := "Ping", assembly := "App" }
private def pong : Method := { declaringType := "Game", name := "Pong", assembly := "App" }
private def flush : Method := { declaringType := "System.IO.Stream", name := "Flush", assembly := "mscorlib" }

private def callLine (offset code : Nat) (m : Method) : Line Reference :=
  ⟨offset, (Opcode.ofCode? code).getD .unknown, .resolved (.method m), 5⟩

/-- `Ping` calls `Pong`, which calls `Ping` and a method of another assembly. -/
private def game : CallSource Id where
  name := "App"
  methods := [ping, pong]
  listing? m :=
    if m = ping then some ⟨[callLine 0 0x28 pong], none⟩
    else if m = pong then some ⟨[callLine 0 0x28 ping, callLine 5 0x6F flush], none⟩
    else none

private theorem game_calls (m : Method) : Id.run (game.calls m) =
    if m = ping then [(pong, .call)] else if m = pong then [(ping, .call), (flush, .virtualCall)] else [] := by
  show callsOf (if _ then _ else if _ then _ else _) = _
  split
  · rfl
  · split <;> rfl

private theorem mem_of_game_reachable {m : Method} (h : game.Reachable ping m) : m ∈ [ping, pong, flush] := by
  obtain ⟨n, h⟩ := h
  induction h with
  | root => simp
  | call _ hcall ih =>
    rw [← mem_calls, game_calls] at hcall
    split at hcall
    · simp only [List.mem_singleton, Prod.mk.injEq] at hcall
      simp [hcall.1]
    split at hcall
    · simp only [List.mem_cons, List.not_mem_nil, or_false, Prod.mk.injEq] at hcall
      rcases hcall with hcall | hcall <;> simp [hcall.1]
    · simp at hcall

private theorem game_coherent : game.Coherent ping := by
  have hids : ∀ m ∈ [ping, pong, flush], ∀ m' ∈ [ping, pong, flush], m.id = m'.id → m = m' := by decide +kernel
  refine ⟨?_, ?_⟩
  · intro m m' hm hm' hid t kind
    rw [hids m (mem_of_game_reachable hm) m' (mem_of_game_reachable hm') hid]
    exact id
  · intro m m' hm hm' hid
    rw [hids m (mem_of_game_reachable hm) m' (mem_of_game_reachable hm') hid]

theorem bounded_search_game :
    game.Coherent ping ∧
      ((∃ n marked, game.turns 2 n (.start game ping) = .ok ⟨Id.run (game.subgraph ping 2), marked, []⟩) ∧
        game.ReachesTo ping 2 (Id.run (game.subgraph ping 2))) ∧
      (Id.run (game.subgraph ping 2)).nodes.map (·.isExternal) = [false, false, true] ∧
      (Id.run (game.subgraph ping 2)).edges.map (·.kind) = [.call, .call, .virtualCall] :=
  ⟨game_coherent, bounded_search game_coherent 2, by decide +kernel, by decide +kernel⟩

end CilProbe.CallSource
