import CilProbe.Assembly.Bodies
import CilProbe.Code.Body
import CilProbe.Image.Basic

/-!
# Managed images

An image with managed code has a header of its own for it, which leads to the metadata. The code of a method is found in
two steps, since its size is only known from its header.
-/

namespace CilProbe

/-- The header for managed code. -/
structure ClrHeader where
  size : Nat
  majorVersion : Nat
  minorVersion : Nat
  metadataAddress : Nat
  metadataSize : Nat
  flags : Nat
  entryPoint : Nat
  resourcesAddress : Nat
  resourcesSize : Nat
  strongNameAddress : Nat
  strongNameSize : Nat
  deriving DecidableEq, Repr

/-- Why a file cannot be inspected. -/
inductive ImageError where
  /-- The file is no executable, or its managed header is at an address where there is nothing. -/
  | notExecutable
  | format (error : Metadata.FormatError)
  deriving DecidableEq, Repr

/-- An image with its managed header and metadata. -/
structure ManagedImage where
  image : Image
  header : ClrHeader
  metadata : Metadata
  /-- The section that was found last while the headers were read. -/
  found : Option Image.Section

namespace ClrHeader

/-- The length of the header with its reserved fields. -/
def length : Nat := 72

def ofBytes? (bytes : Bytes) : Option ClrHeader :=
  if bytes.length < length then none
  else
    let field (offset width : Nat) := Bytes.ofLittleEndian ((bytes.drop offset).take width)
    some ⟨field 0 4, field 4 2, field 6 2, field 8 4, field 12 4, field 16 4, field 20 4, field 24 4, field 28 4,
      field 32 4, field 36 4⟩

/-- The fields in the order of the header. -/
def toList (h : ClrHeader) : List Nat :=
  [h.size, h.majorVersion, h.minorVersion, h.metadataAddress, h.metadataSize, h.flags, h.entryPoint,
   h.resourcesAddress, h.resourcesSize, h.strongNameAddress, h.strongNameSize]

end ClrHeader

namespace ManagedImage

open Image (Reading Extent)
open Metadata (FormatError)

/-- Reading that may fail. -/
private abbrev Attempt := ExceptT ImageError Reading

private def readHeader (image : Image) (address : Nat) : Attempt ClrHeader := do
  match ← (image.extentAt address : Reading _) with
  | none => throw .notExecutable
  | some extent =>
    match ClrHeader.ofBytes? (image.bytesOf extent ClrHeader.length) with
    | some header => return header
    | none => throw (.format .truncatedClrHeader)

/-- The bytes of the metadata. -/
private def readMetadata (image : Image) (header : ClrHeader) : Attempt Bytes := do
  if header.metadataAddress = 0 ∨ header.metadataSize = 0 then throw (.format .noMetadata)
  match ← (image.extentAt header.metadataAddress : Reading _) with
  | none => throw (.format (.badMetadataAddress header.metadataAddress))
  | some extent =>
    let bytes := image.bytesOf extent header.metadataSize
    if bytes.length < header.metadataSize ∨ Bytes.ofLittleEndian (bytes.take 4) ≠ Metadata.magic then
      throw (.format .corruptClrHeader)
    return bytes

/-- The managed header and the metadata. The address where the program starts is looked up before them. -/
private def readParts (image : Image) : Attempt (ClrHeader × Metadata) := do
  let _ ← (image.sectionAt image.entryPoint : Reading _)
  match image.managedHeader with
  | none => throw (.format .notManaged)
  | some address =>
    let header ← readHeader image address
    match Metadata.read (← readMetadata image header).toArray with
    | .ok metadata => return (header, metadata)
    | .error e => throw (.format e)

/-- The managed image in a file. -/
def read (data : Buffer) : Except ImageError ManagedImage :=
  match Image.read? data with
  | none => .error .notExecutable
  | some image =>
    match (readParts image).run.run none with
    | (.ok (header, metadata), found) => .ok { image, header, metadata, found }
    | (.error e, _) => .error e

/-- The most bytes that the header of a method has. -/
def maxMethodHeader : Nat := 12

/-- The header and the code of a method as far as they are there, given the bytes from the method on, up to a number of
them. -/
def methodIn (bytes : (count : Nat) → Bytes) : Option Bytes := do
  let header ← (MethodHeader.read (bytes maxMethodHeader)).toOption
  return bytes (header.headerSize + header.codeSize)

/-- The header and the code of the method at an address. An address below zero counts from the end of the headers of
the image. -/
def methodAt (m : ManagedImage) : (address : Int) → Reading (Option Bytes)
  | .ofNat 0 => return none
  | .ofNat address => return (← m.image.extentAt address).bind fun extent => methodIn (m.image.bytesOf extent)
  | address => return methodIn fun count => Position.between m.image.headers address (address + count)

/-- The assembly in the image. -/
def assembly (m : ManagedImage) : Assembly := .ofMetadata m.metadata

/-- Where the bodies of the methods are found. -/
def bodies (m : ManagedImage) : BodySource Reading := fun address => m.methodAt address

end ManagedImage

end CilProbe
