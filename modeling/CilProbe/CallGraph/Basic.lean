import CilProbe.Method
import CilProbe.Text.Quoted

/-!
# Call graphs

Methods, each once by its id, and the calls between them, each once by caller, callee and kind. Nodes and edges stand
in the order in which they were added, and an edge only joins nodes of the graph.
-/

namespace CilProbe

/-- The ways in which code calls a method. -/
inductive CallKind where
  | call
  | virtualCall
  | construct
  deriving DecidableEq, Repr

namespace CallKind

def name : CallKind → String
  | call => "call"
  | virtualCall => "virtual-call"
  | construct => "construct"

def ofName? (name : String) : Option CallKind := [call, virtualCall, construct].find? (·.name == name)

/-- The kind of call that an opcode makes. -/
def ofOpcode? (code : Nat) : Option CallKind := [(0x28, call), (0x6F, virtualCall), (0x73, construct)].lookup code

end CallKind

/-- Why an edge is refused. -/
inductive EdgeError where
  /-- One of the two is no node. -/
  | missingNode (source target : String)
  | unknownKind (name : String)
  deriving DecidableEq, Repr

def EdgeError.message : EdgeError → String
  | missingNode source target => s!"Edge {source} -> {target} references a node missing from the graph"
  | unknownKind name => s!"{Text.quoted name} is not a valid Type.CallKind"

structure CallGraph.Node where
  id : String
  displayName : String
  /-- The method is declared in another assembly. -/
  isExternal : Bool
  deriving DecidableEq, Repr

structure CallGraph.Edge where
  source : String
  target : String
  kind : CallKind
  deriving DecidableEq, Repr

structure CallGraph where
  nodes : List CallGraph.Node := []
  edges : List CallGraph.Edge := []
  deriving DecidableEq, Repr

namespace CallGraph

def node? (g : CallGraph) (id : String) : Option Node := g.nodes.find? (·.id == id)

def contains (g : CallGraph) (id : String) : Bool := (g.node? id).isSome

/-- Adds a method. A method that is there keeps its first node. -/
def addNode (g : CallGraph) (m : Method) (isExternal : Bool := false) : Node × CallGraph :=
  match g.node? m.id with
  | some node => (node, g)
  | none =>
    let node : Node := ⟨m.id, m.displayName, isExternal⟩
    (node, { g with nodes := g.nodes ++ [node] })

/-- Adds a call, unless it is there. -/
def insertEdge (g : CallGraph) (edge : Edge) : CallGraph :=
  if g.edges.contains edge then g else { g with edges := g.edges ++ [edge] }

/-- Adds a call between two nodes. The answer is the edge, or none if it was there. -/
def addEdge (g : CallGraph) (source target : String) (kind : CallKind) :
    Except EdgeError (Option Edge × CallGraph) :=
  if g.contains source && g.contains target then
    let edge : Edge := ⟨source, target, kind⟩
    .ok (if g.edges.contains edge then none else some edge, g.insertEdge edge)
  else .error (.missingNode source target)

/-- The methods that a method calls, in the order of the edges. -/
def callees (g : CallGraph) (id : String) : List String := (g.edges.filter (·.source == id)).map (·.target)

end CallGraph

end CilProbe
