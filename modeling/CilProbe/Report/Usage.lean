/-!
# Usage

The explanation of the options. The line with all options is folded so that no line is longer than the screen is wide.
-/

namespace CilProbe.Report

/-- The width of the screen, without a margin. -/
def screenWidth : Nat := 78

/-- Puts words behind each other, and on a new line where the next one would not fit; `line` is what stands on the last
line so far. -/
private def fold (indent : String) : (line : String) → List String → List String
  | line, [] => [line]
  | line, word :: words =>
    if screenWidth < line.length + 1 + word.length then line :: fold indent (indent ++ word) words
    else fold indent (line ++ " " ++ word) words

/-- The line with all options for a program of this name. If it does not fit, the file stands on a line of its own. -/
private def synopsis (program : String) : List String :=
  let front := "usage: " ++ program
  let optional := ["[-h]", "[--graph]", "[--root ROOT]", "[--depth DEPTH]"]
  let file := "file"
  let whole := " ".intercalate (front :: optional ++ [file])
  if whole.length ≤ screenWidth then [whole]
  else
    let indent := String.ofList (List.replicate (front.length + 1) ' ')
    fold indent front optional ++ [indent ++ file]

/-- The explanation of the options of a program. -/
def usage (program : String) : List String :=
  synopsis program ++ [
    "",
    "Disassemble .NET assembly IL code.",
    "",
    "positional arguments:",
    "  file           Absolute file path of .NET assembly.",
    "",
    "options:",
    "  -h, --help     show this help message and exit",
    "  --graph        Print the call graph instead of the IL code.",
    "  --root ROOT    Root method (id or Type.Method) of a call subgraph.",
    "  --depth DEPTH  Depth bound of the call subgraph."]

end CilProbe.Report
