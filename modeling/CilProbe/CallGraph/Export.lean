import CilProbe.CallGraph.Basic
import CilProbe.Text.JsonString

/-!
# Call graphs as JSON

What is exported of a graph: a record for each node and for each edge. As JSON text they have one field per line.
-/

namespace CilProbe.CallGraph

/-- The value of a field. -/
inductive Value where
  | text (s : String)
  | flag (b : Bool)
  deriving DecidableEq, Repr

/-- Fields by name, in their order. -/
abbrev Record := List (String × Value)

def Node.record (n : Node) : Record :=
  [("id", .text n.id), ("display_name", .text n.displayName), ("is_external", .flag n.isExternal)]

def Edge.record (e : Edge) : Record :=
  [("from", .text e.source), ("to", .text e.target), ("kind", .text e.kind.name)]

/-- The records of all nodes and of all edges. -/
structure Records where
  nodes : List Record
  edges : List Record
  deriving DecidableEq, Repr

def records (g : CallGraph) : Records := ⟨g.nodes.map Node.record, g.edges.map Edge.record⟩

private def indent (depth : Nat) : String := String.ofList (List.replicate (4 * depth) ' ')

/-- Items between brackets, each on a line of its own. Without items the brackets stand together. -/
private def block (opening closing : String) (depth : Nat) (items : List String) : String :=
  if items.isEmpty then opening ++ closing
  else
    opening ++ "\n" ++ ",\n".intercalate (items.map (indent (depth + 1) ++ ·)) ++ "\n" ++ indent depth ++ closing

private def object (depth : Nat) (fields : List (String × String)) : String :=
  block "\x7b" "\x7d" depth (fields.map fun (key, value) => Text.jsonString key ++ ": " ++ value)

private def Value.json : Value → String
  | text s => Text.jsonString s
  | flag b => if b then "true" else "false"

private def Record.json (depth : Nat) (r : Record) : String := object depth (r.map fun (key, value) => (key, value.json))

def Records.toJson (r : Records) : String :=
  object 0 [("nodes", block "[" "]" 1 (r.nodes.map (Record.json 2))),
    ("edges", block "[" "]" 1 (r.edges.map (Record.json 2)))]

def toJson (g : CallGraph) : String := g.records.toJson

end CilProbe.CallGraph
