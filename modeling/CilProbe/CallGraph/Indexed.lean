import CilProbe.CallGraph.Basic
import Std.Data.HashSet

/-!
# Call graphs with an index

While a graph grows, its nodes are found by their ids, and of each call a key is kept by which it is found again. A
method or a call that was found is not added; a call that is refused leaves the graph as it was.
-/

namespace CilProbe

deriving instance Hashable for CallKind

namespace CallGraph

/-- What tells calls apart: the caller, the callee and the kind. -/
abbrev Key := String × String × CallKind

def Edge.key (e : Edge) : Key := (e.source, e.target, e.kind)

/-- A graph that grows. -/
structure Indexed where
  /-- The nodes by id, in the order in which they were added. -/
  nodes : List (String × Node) := []
  edges : List Edge := []
  /-- The keys of the edges. -/
  keys : Std.HashSet Key := {}

namespace Indexed

/-- The nodes and edges alone. -/
def graph (g : Indexed) : CallGraph := ⟨g.nodes.map (·.2), g.edges⟩

def contains (g : Indexed) (id : String) : Bool := (g.nodes.lookup id).isSome

/-- Adds a method and answers its node. A method that is there keeps its first node. -/
def addNode (m : Method) (isExternal : Bool := false) : StateM Indexed Node := do
  match (← get).nodes.lookup m.id with
  | some node => return node
  | none =>
    let node : Node := ⟨m.id, m.displayName, isExternal⟩
    modify fun g => { g with nodes := g.nodes ++ [(m.id, node)] }
    return node

/-- Adds a call between two nodes. The answer is the edge, or none if it was there. What was done before a failure
lasts. -/
def addEdge (source target : String) (kind : CallKind) : ExceptT EdgeError (StateM Indexed) (Option Edge) := do
  let g ← get
  unless g.contains source && g.contains target do throw (.missingNode source target)
  let edge : Edge := ⟨source, target, kind⟩
  if g.keys.contains edge.key then return none
  modify fun g => { g with keys := g.keys.insert edge.key }
  modify fun g => { g with edges := g.edges ++ [edge] }
  return some edge

/-- The same with the kind given by name. -/
def addEdgeOf (source target kind : String) : ExceptT EdgeError (StateM Indexed) (Option Edge) :=
  match CallKind.ofName? kind with
  | some kind => addEdge source target kind
  | none => throw (.unknownKind kind)

end Indexed

end CallGraph

end CilProbe
