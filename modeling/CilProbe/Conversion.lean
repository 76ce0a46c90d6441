import CilProbe.Binary64.Reader
import CilProbe.DateTime.Reader
import CilProbe.Decimal.Reader
import CilProbe.Guid.Reader
import CilProbe.Text.Lowercase
import CilProbe.TimeSpan.Reader
import CilProbe.Value

/-!
# Conversion of text

How the text for a parameter is read as a value of the type of the parameter, and what the values are that need no
text. Both tables go by the full name of the type.
-/

namespace CilProbe.Conversion

/-- The least and the greatest value of the integer types. -/
def integerRanges : List (String × Int × Int) :=
  [("System.SByte", -2 ^ 7, 2 ^ 7 - 1), ("System.Byte", 0, 2 ^ 8 - 1),
   ("System.Int16", -2 ^ 15, 2 ^ 15 - 1), ("System.UInt16", 0, 2 ^ 16 - 1),
   ("System.Int32", -2 ^ 31, 2 ^ 31 - 1), ("System.UInt32", 0, 2 ^ 32 - 1),
   ("System.Int64", -2 ^ 63, 2 ^ 63 - 1), ("System.UInt64", 0, 2 ^ 64 - 1)]

/-- Whether the digits are hexadecimal: behind any signs stands `0x`. -/
def isHex (text : String) : Bool :=
  match (Text.lower (Text.strip text)).toList.dropWhile (fun c => c == '+' || c == '-') with
  | '0' :: 'x' :: _ => true
  | _ => false

/-- Reads an integer between two bounds. A value outside is named in the reason, unless it has too many digits to be
shown. -/
def integer (low high : Int) (text : String) : Except ConversionReason Value :=
  let digits := Text.strip text
  match if isHex text then Text.hexInteger? digits else Text.decimalInteger? digits with
  | none => .error .malformed
  | some n =>
    if low ≤ n ∧ n ≤ high then .ok (.int n)
    else if n.natAbs < 10 ^ Text.maxIntegerDigits then .error (.outOfRange n low high)
    else .error .malformed

def boolean (text : String) : Except ConversionReason Value :=
  let word := Text.lower (Text.strip text)
  if word = "true" then .ok (.bool true)
  else if word = "false" then .ok (.bool false)
  else .error .expectedBoolean

/-- A character is one code point, with nothing around it. -/
def character (text : String) : Except ConversionReason Value :=
  if text.length = 1 then .ok (.text text) else .error .expectedCharacter

/-- A reader that gives no reason. -/
private def literal (read : String → Option Value) (text : String) : Except ConversionReason Value :=
  match read text with
  | some v => .ok v
  | none => .error .malformed

def real : String → Except ConversionReason Value := literal fun s => (Binary64.ofText? s).map .real

def decimal (text : String) : Except ConversionReason Value :=
  match Decimal.ofText? text with
  | some d => .ok (.decimal d)
  | none => .error (.invalidDecimal text)

def dateTime : String → Except ConversionReason Value := literal fun s => (DateTime.ofText? s).map .dateTime

def timeSpan : String → Except ConversionReason Value := literal fun s => (TimeSpan.ofText? s).map .timeSpan

theorem timeSpan_eq (text : String) :
    timeSpan text = (TimeSpan.ofText? text).elim (.error .malformed) fun t => .ok (.timeSpan t) := by
  rw [timeSpan, literal]
  cases TimeSpan.ofText? text with
  | none => rfl
  | some t => rfl

def guid : String → Except ConversionReason Value := literal fun s => (Guid.ofText? s).map .guid

/-- The reader for a type, if the type has one here. -/
def reader? (typeName : String) : Option (String → Except ConversionReason Value) :=
  match integerRanges.lookup typeName with
  | some (low, high) => some (integer low high)
  | none =>
    [("System.Boolean", boolean), ("System.Char", character), ("System.Double", real), ("System.Single", real),
     ("System.Decimal", decimal), ("System.DateTime", dateTime), ("System.TimeSpan", timeSpan),
     ("System.Guid", guid)].lookup typeName

/-- The value of the member of an enumeration with a name; case and blanks at the ends do not matter. The first such
member counts. -/
def enumMember (members : List (String × Value)) (text : String) : Except ConversionReason Value :=
  let wanted := Text.lower (Text.strip text)
  match members.find? fun (name, _) => Text.lower name = wanted with
  | some (_, v) => .ok v
  | none => .error (.noMember text)

/-- The value of a parameter of a type for which there is no text. -/
def default? (typeName : String) : Option Value :=
  if (integerRanges.lookup typeName).isSome then some (.int 0)
  else
    [("System.Boolean", Value.bool false), ("System.Double", .real (Binary64.zero false)),
     ("System.Single", .real (Binary64.zero false)), ("System.Decimal", .decimal Decimal.zero),
     ("System.Char", .text "\x00"), ("System.String", .text ""), ("System.Guid", .guid Guid.zero),
     ("System.DateTime", .dateTime DateTime.first), ("System.TimeSpan", .timeSpan TimeSpan.zero),
     ("System.Object", .none)].lookup typeName

end CilProbe.Conversion
