import CilProbe.CallGraph.Build
import CilProbe.Text.Numeral

/-!
# Options

The arguments behind the file on the command line. First every argument is classified by its own text; then the options
take effect from left to right, until one of them asks for help or cannot be used. The name of an option may be cut
short as long as only one option begins so.

The two characters `--` end the options. They may only stand in front of all other arguments, and since nothing is
expected behind the options, they may only stand alone.
-/

namespace CilProbe.Report

/-- What is asked for on the command line, next to the file. -/
structure Options where
  /-- A call graph instead of the listings. -/
  graph : Bool := false
  /-- The method around which the graph is built, by id or by its name with that of its type; empty for all. -/
  root : String := ""
  depth : Int := CallSource.defaultDepth
  deriving DecidableEq, Repr

/-- What a command line asks for. -/
inductive Request where
  /-- An explanation of the options instead of a report. -/
  | help
  | report (options : Options)
  deriving DecidableEq, Repr

namespace Options

/-- The options. -/
inductive Flag where
  | help
  | graph
  | root
  | depth
  deriving DecidableEq, Repr

/-- The names of the options; help has a short one as well. -/
def flags : List (String × Flag) :=
  [("-h", .help), ("--help", .help), ("--graph", .graph), ("--root", .root), ("--depth", .depth)]

/-- What an argument is on its own. -/
inductive Argument where
  /-- An option, with the text that is attached to it. -/
  | option (flag : Flag) (attached : Option String)
  /-- It looks like an option, but there is none of this name. -/
  | unknown
  | value (text : String)
  deriving DecidableEq, Repr

/-- Splits an argument at its first equals sign. -/
private def splitValue (argument : List Char) : List Char × Option String :=
  let front := argument.takeWhile (· != '=')
  match argument.drop front.length with
  | [] => (front, none)
  | _ :: value => (front, some (String.ofList value))

/-- The options whose names begin so. -/
private def flagsWith (start : List Char) : List Flag :=
  (flags.filter fun (name, _) => start.isPrefixOf name.toList).map (·.2)

/-- Whether an argument is a number behind a minus sign. A line break may follow it. -/
private def isNegativeNumber (argument : List Char) : Bool :=
  let isDigit (c : Char) : Bool := (Text.digit? c).isSome
  let text := if argument.getLast? = some '\n' then argument.dropLast else argument
  match text with
  | '-' :: rest =>
    match rest.dropWhile isDigit with
    | [] => !rest.isEmpty
    | '.' :: fraction => !fraction.isEmpty && fraction.all isDigit
    | _ => false
  | _ => false

/-- Whether text behind the short name of help is a row of further short names; the first one that is none ends it. -/
private def isShortRow : List Char → Bool
  | [] => true
  | c :: rest => c != '-' && c != '=' && (c != 'h' || isShortRow rest)

/-- Classifies an argument. None if it could be more than one option. -/
private def classify? (argument : String) : Option Argument :=
  let cs := argument.toList
  let (name, attached) := splitValue cs
  match flags.lookup argument, flags.lookup (String.ofList name), cs with
  | some flag, _, _ => some (.option flag none)
  | none, some flag, _ => some (.option flag attached)
  | none, none, '-' :: '-' :: _ =>
    match flagsWith name with
    | [] => some (unnamed cs)
    | [flag] => some (.option flag attached)
    | _ => none
  | none, none, '-' :: 'h' :: rest =>
    some (.option .help (if isShortRow rest then none else some (String.ofList rest)))
  | none, none, cs => some (unnamed cs)
where
  /-- An argument that is no option. Numbers and arguments with a blank are values even behind a dash. -/
  unnamed : List Char → Argument
    | '-' :: c :: rest =>
      if isNegativeNumber ('-' :: c :: rest) || (c :: rest).contains ' ' then .value argument else .unknown
    | _ => .value argument

/-- The effect of an option with a value, which not every option takes. -/
private def set (options : Options) (value : String) : Flag → Option Options
  | .root => some { options with root := value }
  | .depth => (Text.decimalInteger? value).map fun depth => { options with depth }
  | .help | .graph => none

/-- Lets classified arguments take effect. Arguments that nothing takes are only refused at the end. -/
private def request? (options : Options) (leftOver : Bool) : List Argument → Option Request
  | [] => if leftOver then none else some (.report options)
  | .unknown :: rest | .value _ :: rest => request? options true rest
  | .option .help none :: _ => some .help
  | .option .graph none :: rest => request? { options with graph := true } leftOver rest
  | .option flag (some value) :: rest => (set options value flag).bind (request? · leftOver rest)
  | .option flag none :: .value value :: rest => (set options value flag).bind (request? · leftOver rest)
  | .option _ none :: _ => none

/-- The request in the arguments behind the file. -/
def ofArguments? (arguments : List String) : Option Request := do
  if arguments = ["--"] then return .report {}
  let classified ← (arguments.takeWhile (· ≠ "--")).mapM classify?
  let ended := classified.length < arguments.length
  request? {} ended classified

end Options

end CilProbe.Report
