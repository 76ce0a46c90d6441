import CilProbe.Assembly.Basic
import CilProbe.FileTree
import CilProbe.Text.Lowercase

/-!
# Dependencies

Where the assemblies and native modules are that an assembly refers to. Assemblies are looked for next to the file,
native modules also in the directories of a search path. What the runtime brings along need not be found.
-/

namespace CilProbe

namespace Dependency

inductive Kind where
  | managed
  | native
  deriving DecidableEq, Repr

def Kind.name : Kind → String
  | managed => "Managed"
  | native => "Native"

/-- How the search for a dependency ended. -/
inductive Finding where
  | file (path : String)
  | providedByRuntime
  | missing
  deriving DecidableEq, Repr

end Dependency

/-- A dependency by its name in the metadata, and what became of it. -/
structure Dependency where
  kind : Dependency.Kind
  name : String
  finding : Dependency.Finding
  deriving DecidableEq, Repr

namespace Dependency

def isResolved (d : Dependency) : Bool := d.finding != .missing

/-- The path of the file; empty if there is none. -/
def path (d : Dependency) : String :=
  match d.finding with
  | .file path => path
  | _ => ""

/-- A remark on what was not found as a file. -/
def note (d : Dependency) : String :=
  match d.finding, d.kind with
  | .file _, _ => ""
  | .providedByRuntime, _ => "provided by the runtime"
  | .missing, .managed => "not found next to the assembly"
  | .missing, .native => "not found next to the assembly or on the search path"

/-- Whether an assembly of this name comes with every runtime. -/
def isRuntimeProvided (name : String) : Bool :=
  ["mscorlib", "netstandard", "System"].contains name ||
    ["System.", "Microsoft."].any fun start => start.toList.isPrefixOf name.toList

/-- The extensions of a file that may hold a dependency, in the order in which they are tried. -/
def extensions : Kind → List String
  | .managed => [".dll", ".exe"]
  | .native => [".dll"]

/-- The file names to try. A name that has one of the extensions, in letters of any case, is the only one. -/
def candidates (kind : Kind) (name : String) : List String :=
  if (extensions kind).contains (Text.lower (Path.extension name)) then [name]
  else (extensions kind).map (name ++ ·)

/-- The first file with one of the names in one of the directories; the first directory counts before the first
name. -/
def find? (files : FileTree) (directories names : List String) : Option String :=
  (directories.flatMap fun directory => names.map (Path.join directory)).find? files.isFile

/-- Looks for a referenced assembly, in one directory only. -/
def ofReference (files : FileTree) (base name : String) : Dependency where
  kind := .managed
  name := name
  finding :=
    match find? files [base] (candidates .managed name) with
    | some path => .file path
    | none => if isRuntimeProvided name then .providedByRuntime else .missing

/-- Looks for a native module, in the directory of the assembly before those of the search path. -/
def ofModule (files : FileTree) (base : String) (search : List String) (name : String) : Dependency where
  kind := .native
  name := name
  finding :=
    match find? files (base :: search) (candidates .native name) with
    | some path => .file path
    | none => .missing

/-- The directories of a search path in one text, with colons between them. -/
def searchPath (text : String) : List String := (text.splitOn ":").filter (!·.isEmpty)

/-- The dependencies of the assembly at a path: references and then native modules, each name once. -/
def check (files : FileTree) (search : List String) (assembly : String) (references modules : List String) :
    List Dependency :=
  let base := Path.directory (Path.normalised assembly)
  references.eraseDups.map (ofReference files base) ++ modules.eraseDups.map (ofModule files base search)

/-- The dependencies that the metadata of an assembly names. -/
def checkAssembly (files : FileTree) (search : List String) (path : String) (assembly : Assembly) : List Dependency :=
  check files search path assembly.references assembly.unmanagedModules

end Dependency

end CilProbe
