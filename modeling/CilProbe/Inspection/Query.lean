import CilProbe.CallGraph.Build
import CilProbe.Inspection.Members

/-!
# Queries of an assembly

The questions that an assembly answers one after the other, with one memory for all of them: tokens, methods, names of
types, listings and call graphs. A query that fails does not stop the ones after it.
-/

namespace CilProbe.Inspection

open Metadata (LookupError)

variable {σ : Type} (m : Metadata) (bodies : BodySource (StateM σ))

/-! ### Listings and call graphs -/

/-- What the source of method bodies does. -/
def ofSource {α : Type} (act : StateM σ α) : Inspection σ α := fun memory =>
  let (x, source) := act memory.source
  some (.ok x, { memory with source })

/-- The code of a method. -/
def code? (method : Method) : Inspection σ (Option Bytes) := do
  if method.assembly ≠ (← name m) ∨ Metadata.Token.table? method.token ≠ some .methodDef ∨ method.rva = 0 then
    return none
  else return Assembly.codeIn? (← ofSource (bodies method.rva))

/-- The listing of a method, with every token resolved that names something. -/
def listing? (method : Method) : Inspection σ (Option (Listing Reference)) := do
  match ← code? m bodies method with
  | some code => some <$> (Listing.ofCode code).resolveM fun token => attempt (resolve m token)
  | none => return none

/-- Methods with their listings, by which graphs are built. -/
def callSource (methods : List Method) : Inspection σ (CallSource (Inspection σ)) := do
  return ⟨← name m, methods, listing? m bodies⟩

/-- The graph of the assembly. -/
def graph : Inspection σ (Except EdgeError CallGraph) := do
  (← callSource m bodies (← methods m)).tryGraph

/-- The graph around a method, for which the methods of the assembly need not be known. -/
def subgraph (root : Method) (maxDepth : Int) : Inspection σ (Except EdgeError CallGraph) := do
  (← callSource m bodies []).trySubgraph root maxDepth

/-! ### Queries -/

inductive Query where
  | resolve (token : Int)
  | findMethod (token : Int)
  | methodDef (rid : Int)
  | methods
  | typeName (table : String) (rid depth : Int)
  | typeAssembly (table : String) (rid depth : Int)
  | listing (method : Method)
  | graph
  | subgraph (root : Method) (maxDepth : Int)
  deriving DecidableEq, Repr

inductive Answer where
  | reference (reference : Reference)
  | method (method : Method)
  | methods (methods : List Method)
  | text (text : String)
  | listing (listing : Option (Listing Reference))
  | graph (graph : Except EdgeError CallGraph)

def answer : Query → Inspection σ Answer
  | .resolve token => .reference <$> resolve m token
  | .findMethod token => .method <$> findMethod m token
  | .methodDef rid => .method <$> methodDefAt m rid
  | .methods => .methods <$> methods m
  | .typeName table rid depth => .text <$> typeNameIn m table rid depth
  | .typeAssembly table rid depth => .text <$> typeAssemblyIn m table rid depth
  | .listing method => .listing <$> listing? m bodies method
  | .graph => .graph <$> graph m bodies
  | .subgraph root maxDepth => .graph <$> subgraph m bodies root maxDepth

/-- The answers to queries that are asked one after the other. -/
def answers (queries : List Query) : StateM (Memory σ) (List (Option (Except LookupError Answer))) :=
  queries.mapM fun query => (answer m bodies query).ask

end CilProbe.Inspection
