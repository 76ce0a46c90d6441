import CilProbe.Binary64.Text
import CilProbe.CallGraph.Export
import CilProbe.Report.Options

/-!
# Reports

What the command line prints of an assembly: the listings of all methods, type by type, or a call graph as JSON.
-/

namespace CilProbe.Report

private def lineText (line : Line Reference) : String := "\t\t\t" ++ line.render Binary64.toText Reference.text?

/-- The lines for one method with its listing. -/
private def methodLines (m : Method) (listing : Option (Listing Reference)) : List String :=
  ("\tMethod: " ++ m.signature) ::
    match listing with
    | none => ["\t\tNo method body"]
    | some listing =>
      "\t\tDisassembled code:" :: listing.lines.map lineText ++
        if listing.truncated then ["\t\t\t(truncated)"] else []

variable {μ : Type → Type} [Monad μ]

/-- The lines for methods, each type being named where its methods begin; `before` is the type of the method before. -/
private def typeLines (s : CallSource μ) : (before : Option String) → List Method → μ (List String)
  | _, [] => return []
  | before, m :: rest => do
    let heading := if before = some m.declaringType then [] else ["Type: " ++ m.declaringType]
    let lines := methodLines m (← s.listing? m)
    return heading ++ lines ++ (← typeLines s (some m.declaringType) rest)

/-- The listings of all methods. -/
def listings (s : CallSource μ) : μ (List String) := typeLines s none s.methods

/-- The call graph, or a line that says that there is no such method. -/
def callGraph (s : CallSource μ) (options : Options) : μ String := do
  if options.root.isEmpty then return (← s.graph).toJson
  else
    match s.methods.find? fun m => options.root = m.id || options.root = m.displayName with
    | some root => return (← s.subgraph root options.depth).toJson
    | none => return s!"No method named \"{options.root}\""

/-- Lines as text; every line is ended. -/
def ofLines (lines : List String) : String := String.join (lines.map (· ++ "\n"))

/-- The report as text. -/
def text (s : CallSource μ) (options : Options) : μ String := do
  return ofLines (← if options.graph then (fun t => [t]) <$> callGraph s options else listings s)

end CilProbe.Report
