import CilProbe.Path

/-!
# File trees

The directories and files of a file system, each known by the names on the way to it from the root. Where there is a
file or a directory, there are all directories on the way. Names differ if their letters differ in case.
-/

namespace CilProbe

structure FileTree where
  directories : List (List String)
  files : List (List String)
  deriving Repr

namespace FileTree

/-- The tree that holds these directories and files, given by their paths. -/
def ofPaths (directories files : List String) : FileTree where
  directories := directories.map Path.wayOf
  files := files.map Path.wayOf

def isDirectory (t : FileTree) (way : List String) : Bool :=
  way.isEmpty || t.directories.any way.isPrefixOf || t.files.any fun file => file != way && way.isPrefixOf file

/-- Follows components from a directory; the last component may lead to anything, the others to directories. -/
def follow (t : FileTree) (way : List String) : List (List Char) → Option (List String)
  | [] => some way
  | component :: rest =>
    if !t.isDirectory way then none
    else if component = [] || component = ['.'] then t.follow way rest
    else if component = ['.', '.'] then t.follow way.dropLast rest
    else t.follow (way ++ [String.ofList component]) rest

/-- Whether a path from the root on leads to a file. -/
def isFile (t : FileTree) (path : String) : Bool :=
  match t.follow [] (Path.components path.toList) with
  | some way => t.files.contains way
  | none => false

end FileTree

end CilProbe
