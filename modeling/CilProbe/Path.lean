/-!
# Paths

Names of files and directories, with components between slashes. A path that begins with a slash starts at the root;
`.` stands for the directory itself and `..` for the one above it.
-/

namespace CilProbe.Path

/-- The components, split at each slash. -/
def components : List Char → List (List Char)
  | [] => [[]]
  | c :: rest =>
    if c = '/' then [] :: components rest
    else
      match components rest with
      | [] => [[c]]
      | first :: others => (c :: first) :: others

/-- A name in a directory. A name from the root on is taken as it is, and so is a name in the directory without a
name. -/
def join (directory name : String) : String :=
  if name.toList.head? = some '/' || directory.isEmpty then name
  else if directory.toList.getLast? = some '/' then directory ++ name
  else directory ++ "/" ++ name

/-- Adds a component to the way from the root, whose last component comes first. Above the root is the root. -/
def step (way : List (List Char)) (component : List Char) : List (List Char) :=
  if component = [] || component = ['.'] then way
  else if component = ['.', '.'] then way.drop 1
  else component :: way

/-- The way from the root that the components of a path describe. -/
def wayOf (path : String) : List String :=
  ((components path.toList).foldl step []).reverse.map String.ofList

/-- A path from the root on without empty components, `.` and `..`. Two slashes at the start, and no third, stay. -/
def normalised (path : String) : String :=
  let root := match path.toList with
    | '/' :: '/' :: '/' :: _ => "/"
    | '/' :: '/' :: _ => "//"
    | _ => "/"
  root ++ "/".intercalate (wayOf path)

/-- The directory of a path: what stands before the last slash, without slashes at its end. The root is its own
directory. -/
def directory (path : String) : String :=
  let upTo := path.toList.reverse.dropWhile (· != '/')
  let trimmed := upTo.dropWhile (· == '/')
  String.ofList (if trimmed.isEmpty then upTo else trimmed.reverse)

/-- The last component. -/
def name (path : String) : List Char := (path.toList.reverse.takeWhile (· != '/')).reverse

/-- What stands from the last point of the last component on. Points that begin the component do not count. -/
def extension (path : String) : String :=
  let inner := (name path).dropWhile (· == '.')
  if inner.contains '.' then String.ofList ('.' :: (inner.reverse.takeWhile (· != '.')).reverse) else ""

end CilProbe.Path
