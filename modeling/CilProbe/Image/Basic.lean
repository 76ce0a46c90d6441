import CilProbe.Position
import CilProbe.Bytes

/-!
# Executable images

An image is a file whose parts are addressed by where they stand once the image is loaded. Its section table maps these
addresses to places in the file; addresses in front of the first section fall into the headers, and others that no
section covers are taken as places in the file.

Sections may overlap. The section that was found last is tried first, so finding one is an action that remembers it. As
long as no two sections overlap, what is remembered changes no answer.
-/

namespace CilProbe

/-- How sections are aligned: addresses of loaded sections and places in the file. -/
structure Image.Alignment where
  addresses : Nat
  places : Nat
  deriving DecidableEq, Repr

/-- A section as its header describes it. -/
structure Image.SectionHeader where
  virtualAddress : Nat
  virtualSize : Nat
  rawPointer : Nat
  rawSize : Nat
  deriving DecidableEq, Repr

/-- A section of an image: the addresses that it covers and the places of its bytes in the file. -/
structure Image.Section where
  address : Nat
  size : Nat
  place : Nat
  /-- The place behind its last byte. -/
  stop : Nat
  deriving DecidableEq, Repr

/-- A stretch of the file, up to but without `stop`. -/
structure Image.Extent where
  start : Nat
  stop : Nat
  deriving DecidableEq, Repr

structure Image where
  data : Buffer
  /-- The sections by address. -/
  sections : List Image.Section
  /-- The length of the headers. -/
  headerSize : Nat
  /-- The address where the program starts. -/
  entryPoint : Nat
  /-- The address of the header for managed code, if the image says that it has one. -/
  managedHeader : Option Nat

/-- Reading from an image, with the section that was found last. -/
abbrev Image.Reading := StateM (Option Image.Section)

namespace Image

/-! ### Alignment -/

/-- The step to which places in the file are rounded, unless the file asks for less. -/
def placeStep : Nat := 0x200

/-- The least alignment of addresses that counts; below it, that of places counts instead. -/
def pageSize : Nat := 0x1000

/-- The place in the file that a header means. -/
def Alignment.place (a : Alignment) (pointer : Nat) : Nat :=
  if a.places < placeStep then pointer else pointer / placeStep * placeStep

/-- The address that a header means. -/
def Alignment.address (a : Alignment) (address : Nat) : Nat :=
  let step := if a.addresses < pageSize then a.places else a.addresses
  if step = 0 then address else address / step * step

/-! ### Headers -/

/-- The sizes of the headers. -/
def dosHeaderSize : Nat := 64
def fileHeaderSize : Nat := 20
def sectionHeaderSize : Nat := 40

/-- The mark of the wide format of the optional header. Every other one counts as that of the narrow format. -/
def wideMagic : Nat := 0x20B

/-- The size of the optional header in front of its directories. -/
def optionalHeaderSize (magic : Nat) : Nat := if magic = wideMagic then 112 else 96

/-- The bytes that an optional header has at least; those missing behind them count as zero. -/
def minOptionalHeaderSize (magic : Nat) : Nat := if magic = wideMagic then 73 else 69

/-- The directory of the header for managed code, among at most sixteen. -/
def managedDirectory : Nat := 14

/-- The most sections that are read. -/
def maxSections : Nat := 2048

/-- The largest address and size that are usual for a section. -/
def usualLimit : Nat := 0x10000000

/-- A header with so many oddities ends the section table. -/
def maxOddities : Nat := 3

/-- A field of which bytes behind the end of the file count as zero. -/
private def paddedField (data : Buffer) (offset width : Nat) : Nat := Bytes.ofLittleEndian (data.slice offset width)

/-- How many things are odd about a section header. -/
def oddities (a : Alignment) (fileSize : Nat) (h : SectionHeader) : Nat :=
  [decide (fileSize < h.rawPointer + h.rawSize), decide (fileSize < a.place h.rawPointer),
    decide (usualLimit < h.virtualSize), decide (usualLimit < a.address h.virtualAddress),
    a.places ≠ 0 && h.rawPointer % a.places ≠ 0].count true

/-- The section headers from an offset on. A header of zeros, none, or one that is too odd ends them, and one that is
cut off is refused. -/
private def readSections (data : Buffer) (a : Alignment) : (count offset : Nat) → Option (List SectionHeader)
  | 0, _ => some []
  | count + 1, offset =>
    let header := data.slice offset sectionHeaderSize
    if header.isEmpty || (header.length = sectionHeaderSize && header.all (· == 0)) then some []
    else if header.length < sectionHeaderSize then none
    else
      let word (at_ : Nat) := Bytes.ofLittleEndian ((header.drop at_).take 4)
      let first : SectionHeader := ⟨word 12, word 8, word 20, word 16⟩
      if maxOddities ≤ oddities a data.size first then some []
      else (readSections data a count (offset + sectionHeaderSize)).map (first :: ·)

/-- The size of a section when loaded. A section that the file does not hold in full has its virtual size. It ends where
the next section begins. -/
private def loadedSize (a : Alignment) (fileSize : Nat) (h : SectionHeader) (next : Option SectionHeader) : Nat :=
  let size := if fileSize < a.place h.rawPointer + h.rawSize then h.virtualSize else max h.rawSize h.virtualSize
  match next with
  | some next =>
    if h.virtualAddress < next.virtualAddress then min size (next.virtualAddress - a.address h.virtualAddress)
    else size
  | none => size

/-- The sections of headers that are sorted by address. -/
private def load (a : Alignment) (fileSize : Nat) : List SectionHeader → List Section
  | [] => []
  | h :: rest =>
    ⟨a.address h.virtualAddress, loadedSize a fileSize h rest.head?, a.place h.rawPointer, h.rawPointer + h.rawSize⟩ ::
      load a fileSize rest

/-- The address in the managed directory, if the directory is announced and present. -/
private def readManagedDirectory (data : Buffer) (directories count : Nat) : Option Nat :=
  let offset := directories + 8 * managedDirectory
  let address := paddedField data offset 4
  if managedDirectory < count ∧ offset < data.size ∧ address ≠ 0 then some address else none

/-- The length of the headers: up to the first section in the file, or to the end of the section table. -/
private def headerEnd (a : Alignment) (sections : List SectionHeader) (tableEnd : Nat) : Nat :=
  match (((sections.map (·.rawPointer)).filter (0 < ·)).map a.place).min? with
  | some first => max first tableEnd
  | none => tableEnd

/-- The image in a file. None if the file is not an executable. -/
def read? (data : Buffer) : Option Image := do
  guard (dosHeaderSize ≤ data.size ∧ data.slice 0 2 = [0x4D, 0x5A])
  let newHeader ← data.field? 60 4
  guard (data.slice newHeader 4 = [0x50, 0x45, 0, 0])
  let fileHeader := newHeader + 4
  guard (fileHeader + fileHeaderSize ≤ data.size)
  let optionalHeader := fileHeader + fileHeaderSize
  let magic ← data.field? optionalHeader 2
  guard (optionalHeader + minOptionalHeaderSize magic ≤ data.size)
  let alignment : Alignment := ⟨paddedField data (optionalHeader + 32) 4, paddedField data (optionalHeader + 36) 4⟩
  let directories := optionalHeader + optionalHeaderSize magic
  let directoryCount := paddedField data (directories - 4) 4
  let sectionCount ← data.field? (fileHeader + 2) 2
  let table := optionalHeader + (← data.field? (fileHeader + 16) 2)
  let sections ← readSections data alignment (min sectionCount maxSections) table
  let tableEnd := if sections.isEmpty then table else table + sectionHeaderSize * sectionCount
  return {
    data
    sections := load alignment data.size (sections.mergeSort (·.virtualAddress ≤ ·.virtualAddress))
    headerSize := min (headerEnd alignment sections tableEnd) data.size
    entryPoint := paddedField data (optionalHeader + 16) 4
    managedHeader := readManagedDirectory data directories (directoryCount % 2 ^ 31) }

/-! ### Addresses -/

def Section.covers (s : Section) (address : Nat) : Bool := s.address ≤ address && address < s.address + s.size

/-- The section that covers an address: the one found last, or else the first. -/
def sectionAt (image : Image) (address : Nat) : Reading (Option Section) := fun last =>
  let found := (last.toList ++ image.sections).find? (·.covers address)
  (found, found <|> last)

/-- Where bytes at an address stand, given the section that covers it. -/
def extentIn (image : Image) (address : Nat) : Option Section → Option Extent
  | some s => some ⟨address - s.address + s.place, s.stop⟩
  | none =>
    if address < image.headerSize then some ⟨address, image.headerSize⟩
    else if address < image.data.size then some ⟨address, image.data.size⟩
    else none

/-- Where bytes at an address stand. None if there is nothing at the address. -/
def extentAt (image : Image) (address : Nat) : Reading (Option Extent) := do
  return image.extentIn address (← image.sectionAt address)

/-- At most `count` bytes of a stretch. -/
def bytesOf (image : Image) (e : Extent) (count : Nat) : Bytes := image.data.slice e.start (min count (e.stop - e.start))

/-- The headers. -/
def headers (image : Image) : Bytes := image.data.slice 0 image.headerSize

end Image

end CilProbe
