import CilProbe.Assembly.Bodies
import CilProbe.CallGraph.Basic

/-!
# Building call graphs

The graph of a whole assembly has all of its methods and the calls that stay inside. The graph around one method is
searched breadth first: a method is expanded if it is less than `maxDepth` calls away, and callees in other assemblies
are marked as external.

Listings may have to be read; then they are read in the order of the search. Both nodes of a call are added before the
call, so that no edge is refused.
-/

namespace CilProbe

/-- Methods with their listings, by which graphs are built. -/
structure CallSource (μ : Type → Type) where
  /-- The name of the assembly. -/
  name : String
  methods : List Method
  listing? : Method → μ (Option (Listing Reference))

def Assembly.callSource {μ : Type → Type} [Monad μ] (a : Assembly) (bodies : BodySource μ) : CallSource μ where
  name := a.name
  methods := a.methods
  listing? := a.listing? bodies

namespace CallSource

/-- A method that is called, and how. -/
abbrev Call := Method × CallKind

/-- The call that a line makes. -/
def callOf (line : Line Reference) : Option Call :=
  match CallKind.ofOpcode? line.opcode.code, line.operand with
  | some kind, .resolved (.method target) => some (target, kind)
  | _, _ => none

/-- The calls of a listing, in order. -/
def callsOf (listing : Option (Listing Reference)) : List Call :=
  (listing.map fun l => l.lines.filterMap callOf).getD []

variable {μ : Type → Type}

def isLocal (s : CallSource μ) (m : Method) : Bool := m.assembly == s.name

/-- Adds a call to the graph, with the method that is called. -/
def addCall (external : Bool) (caller : Method) (g : CallGraph) (call : Call) : Except EdgeError CallGraph := do
  let (_, g) ← (g.addNode call.1 external).2.addEdge caller.id call.1.id call.2
  return g

/-- The graph of methods with their calls. -/
def graphOf (s : CallSource μ) (calls : List (Method × List Call)) : Except EdgeError CallGraph :=
  let nodes := s.methods.foldl (fun g m => (g.addNode m).2) {}
  calls.foldlM (fun g (m, calls) => (calls.filter (s.isLocal ·.1)).foldlM (addCall false m) g) nodes

/-- Adds the calls of a method to the graph, and the callees that are new to those that were found. -/
def expand (s : CallSource μ) (state : CallGraph × List Method) (m : Method × List Call) :
    Except EdgeError (CallGraph × List Method) :=
  m.2.foldlM (fun (g, found) call => do
    let found := if g.contains call.1.id then found else found ++ [call.1]
    return (← addCall (!s.isLocal call.1) m.1 g call, found)) state

variable [Monad μ]

/-- The methods that a method calls, in the order of its code. -/
def calls (s : CallSource μ) (m : Method) : μ (List Call) := do return callsOf (← s.listing? m)

/-- Methods with their calls. -/
def withCalls (s : CallSource μ) : List Method → μ (List (Method × List Call))
  | [] => return []
  | m :: ms => do
    let first ← s.calls m
    return (m, first) :: (← withCalls s ms)

/-- The graph of the assembly, unless an edge is refused. -/
def tryGraph (s : CallSource μ) : μ (Except EdgeError CallGraph) := do return s.graphOf (← s.withCalls s.methods)

/-- The graph of the assembly. -/
def graph (s : CallSource μ) : μ CallGraph := do return (← s.tryGraph).toOption.getD {}

/-- Goes on with what a level has found, unless an edge was refused. -/
def proceed (next : CallGraph → List Method → μ (Except EdgeError CallGraph)) :
    Except EdgeError (CallGraph × List Method) → μ (Except EdgeError CallGraph)
  | .ok (g, found) => next g found
  | .error e => return .error e

/-- Expands the methods found last, and so on for `depth` levels. -/
def explore (s : CallSource μ) : (depth : Nat) → CallGraph → (found : List Method) → μ (Except EdgeError CallGraph)
  | 0, g, _ => return .ok g
  | _, g, [] => return .ok g
  | depth + 1, g, found => do
    proceed (fun g found => explore s depth g found) ((← s.withCalls found).foldlM s.expand (g, []))

/-- The distance to which a graph reaches if nothing else is said. -/
def defaultDepth : Int := 3

/-- The graph around a method, unless an edge is refused. -/
def trySubgraph (s : CallSource μ) (root : Method) (maxDepth : Int) : μ (Except EdgeError CallGraph) :=
  s.explore maxDepth.toNat (CallGraph.addNode {} root (!s.isLocal root)).2 [root]

/-- The graph around a method. -/
def subgraph (s : CallSource μ) (root : Method) (maxDepth : Int := defaultDepth) : μ CallGraph := do
  return (← s.trySubgraph root maxDepth).toOption.getD {}

end CallSource

end CilProbe
