import CilProbe.Metadata.Table
import CilProbe.Signature.Reader
import CilProbe.Text.Hex
import CilProbe.Text.Quoted

/-!
# Errors of the metadata

Bytes that are no metadata are refused as a whole. Within accepted metadata a single reference may still lead nowhere.
-/

namespace CilProbe.Metadata

/-- Why bytes are no managed image or no metadata. -/
inductive FormatError where
  /-- The header of the metadata ends too early. -/
  | truncated
  | badSignature (signature : Nat)
  | unterminatedName
  | noTables
  | unknownTable (index : Nat)
  | tablesTooLarge
  /-- The image has no managed part. -/
  | notManaged
  | truncatedClrHeader
  | noMetadata
  | badMetadataAddress (rva : Nat)
  | corruptClrHeader
  deriving DecidableEq, Repr

def FormatError.text : FormatError → String
  | truncated => "Metadata header is truncated"
  | badSignature signature => "Invalid metadata signature 0x" ++ Text.hex 8 signature ++ "."
  | unterminatedName => "Unterminated stream name in metadata header."
  | noTables => "Metadata has no tables stream."
  | unknownTable index => s!"Unknown metadata table index {index}."
  | tablesTooLarge => "Metadata tables exceed the metadata size."
  | notManaged => "File is not a .NET assembly."
  | truncatedClrHeader => "CLR header is truncated"
  | noMetadata => "CLR header has no metadata directory."
  | badMetadataAddress rva => "Invalid metadata rva: 0x" ++ Text.hex 1 rva
  | corruptClrHeader => "CLR header of file is most likely corrupt."

/-- The message, which is the text in quotes. -/
def FormatError.message (e : FormatError) : String := Text.quoted e.text

/-- Why a reference within the metadata leads nowhere. -/
inductive LookupError where
  | noRow (table : String) (rid : Int)
  /-- A row of which the data does not hold all columns. -/
  | rowOutside (table : String) (rid : Nat)
  /-- A coded index with a tag that stands for no table. -/
  | badTag (kind : CodedIndex) (tag : Nat)
  | noStream (name : String)
  | stringOutside (offset : Nat)
  | malformedString (offset : Int)
  /-- An offset so far below zero that it lies before the heap. -/
  | beforeHeap
  | notStringToken (token : Int)
  /-- An identifier of which the data holds less than sixteen bytes. -/
  | truncatedGuid
  | notTypeTable (table : String)
  | nestedTooDeep
  /-- A type specification that is part of itself. -/
  | selfReference (rid : Nat)
  /-- A generic type specification with a tag that stands for no table. -/
  | badGenericTag
  | signature (flaw : Signature.Flaw)
  | notMethodToken (token : Int)
  /-- A method specification of something else than a method. -/
  | notMethod (rid : Nat)
  /-- A token of a table without members and types, or of no table. -/
  | notMember (token : Int) (table : Option Table)
  deriving DecidableEq, Repr

namespace LookupError

/-- The two ways to fail that are part of inspecting metadata, and a third that only a malformed specification, an
offset before a heap and a row outside the data show. -/
inductive Category where
  | missing
  | invalid
  | outOfRange
  deriving DecidableEq, Repr

def category : LookupError → Category
  | truncatedGuid | nestedTooDeep | selfReference _ | signature _ => .invalid
  | rowOutside .. | badGenericTag | beforeHeap => .outOfRange
  | _ => .missing

def message : LookupError → String
  | noRow table rid => s!"{table} has no row {rid}"
  | rowOutside table rid => s!"the data ends before row {rid} of {table}"
  | badTag kind tag => s!"Invalid {kind.name} tag {tag}"
  | noStream name => s!"Metadata has no {name} stream"
  | stringOutside offset => s!"User string offset 0x{Text.hex 1 offset} outside of #US heap"
  | malformedString offset => s!"Malformed user string at 0x{Text.signedHex 1 offset}"
  | beforeHeap => "index out of range"
  | notStringToken token => s!"Token 0x{Text.signedHex 8 token} is not a user string token"
  | truncatedGuid => "bytes_le is not a 16-char string"
  | notTypeTable table => s!"{table} is not a type table"
  | nestedTooDeep => "Type nesting is too deep"
  | selfReference rid => s!"TypeSpec {rid} references itself"
  | badGenericTag => "list index out of range"
  | signature flaw => flaw.message
  | notMethodToken token => s!"Token 0x{Text.signedHex 8 token} is not a MethodDef token"
  | notMethod rid => s!"MethodSpec {rid} does not reference a method"
  | notMember token table =>
    let name := (table.map Table.name).getD "None"
    s!"Cannot resolve token 0x{Text.signedHex 8 token} ({name})"

/-- Whether inspection goes on without what could not be found. -/
def isTolerated (e : LookupError) : Bool := e.category != .outOfRange

/-- A result, or what stands in for one that is missing or invalid. Other failures pass. -/
def tolerate {α : Type} (fallback : α) : Except LookupError α → Except LookupError α
  | .ok x => .ok x
  | .error e => if e.isTolerated then .ok fallback else .error e

end LookupError

end CilProbe.Metadata
