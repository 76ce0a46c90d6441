import CilProbe.Text.Digit

/-!
# Names of types

A full name is a namespace, a point and a name, or just a name. For readers a type is shown without its namespace, and
the built-in types by their keywords.
-/

namespace CilProbe.TypeName

/-- The keywords of built-in types. -/
def keywords : List (String × String) :=
  [("System.Void", "void"), ("System.Boolean", "bool"), ("System.Char", "char"), ("System.SByte", "sbyte"),
   ("System.Byte", "byte"), ("System.Int16", "short"), ("System.UInt16", "ushort"), ("System.Int32", "int"),
   ("System.UInt32", "uint"), ("System.Int64", "long"), ("System.UInt64", "ulong"), ("System.Single", "float"),
   ("System.Double", "double"), ("System.Decimal", "decimal"), ("System.String", "string"),
   ("System.Object", "object")]

/-- What stands behind the last point; everything, if there is none. -/
def afterLastPoint (name : String) : String :=
  String.ofList ((name.toList.reverse.takeWhile (· != '.')).reverse)

/-- The name as it is shown in signatures. -/
def short (name : String) : String := (keywords.lookup name).getD (afterLastPoint name)

/-- Whether a type variable is part of the name. -/
def mentionsVariable (name : String) : Bool := name.toList.contains '!'

/-- The name without what stands from the last point on. -/
def beforeLastPoint (name : String) : String :=
  if name.toList.contains '.' then String.ofList ((name.toList.reverse.dropWhile (· != '.')).drop 1).reverse else name

/-- A name in a namespace; an empty namespace is none. -/
def qualified (space name : String) : String := if space.isEmpty then name else space ++ "." ++ name

/-- The number that decimal digits of any script write. -/
def numberOf (digits : List Char) : Nat := digits.foldl (fun n c => 10 * n + (Text.digit? c).getD 0) 0

/-- Replaces each type parameter of a method, written `!!` and a number, by the argument of that number. Where there is
no such argument the text stays. -/
def substituteIn (arguments : List String) : List Char → List Char
  | [] => []
  | '!' :: '!' :: rest =>
    let digits := rest.takeWhile fun c => (Text.digit? c).isSome
    if digits.isEmpty then '!' :: substituteIn arguments ('!' :: rest)
    else
      ((arguments[numberOf digits]?.map String.toList).getD ('!' :: '!' :: digits)) ++
        substituteIn arguments (rest.drop digits.length)
  | c :: rest => c :: substituteIn arguments rest
termination_by name => name.length

def substitute (arguments : List String) (name : String) : String :=
  String.ofList (substituteIn arguments name.toList)

/-- The name of the pseudo type that owns what no type owns. -/
def moduleType : String := "<Module>"

/-- The type of methods that return nothing. -/
def void : String := "System.Void"

end CilProbe.TypeName
