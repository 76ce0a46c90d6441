import CilProbe.Image.Managed
import CilProbe.Proofs.Buffer
import CilProbe.Proofs.Code.Body

/-!
# Bodies that are fetched in two steps

How long a body is stands in its header, so a body is fetched in two steps: first a window in which there is room for a
header, then as many bytes as the header announces.  Both steps together agree with reading all bytes that are available
at once (`bodies_fetched`).  The window may be longer than the body, or shorter than a header with padding; the header
is the same in both, since it depends on its fields alone (`MethodHeader.read_take_eq_ok_iff`).

Finding bytes in an image changes what the image remembers, but not what is found a second time
(`Image.sectionAt_sectionAt`).
-/

namespace CilProbe

variable {data code : Bytes} {header : MethodHeader} {count : Nat} {σ : Type}

/-! ### Parts of a body -/

theorem MethodHeader.read_take_eq_ok_iff (hcount : header.toBytes.length ≤ count) :
    read (data.take count) = .ok header ↔ read data = .ok header := by
  rw [read_eq_ok_iff, read_eq_ok_iff, List.prefix_take_iff, and_iff_left hcount]

theorem readMethodBody_take_eq_ok_iff (hcount : header.headerSize + header.codeSize ≤ count) :
    readMethodBody (data.take count) = .ok (header, code) ↔ readMethodBody data = .ok (header, code) := by
  rw [readMethodBody_eq_ok_iff, readMethodBody_eq_ok_iff, List.drop_take, List.take_take, List.prefix_take_iff]
  constructor
  · rintro ⟨hfits, ⟨hheader, -⟩, hcode⟩
    rw [Nat.min_eq_left (by omega)] at hcode
    exact ⟨hfits, hheader, hcode⟩
  · rintro ⟨hfits, hheader, hcode⟩
    have hlength := hfits.length_toBytes_le
    rw [Nat.min_eq_left (by omega)]
    exact ⟨hfits, ⟨hheader, by omega⟩, hcode⟩

theorem read_of_readMethodBody (hbody : readMethodBody data = .ok (header, code)) :
    MethodHeader.read data = .ok header := by
  obtain ⟨hfits, hheader, -⟩ := readMethodBody_eq_ok_iff.1 hbody
  exact MethodHeader.read_eq_ok_iff.2 ⟨hfits, hheader⟩

/-- As many bytes as their header announces begin with the same header. -/
theorem MethodHeader.read_take_announced (hread : read data = .ok header) :
    read (data.take (header.headerSize + header.codeSize)) = .ok header := by
  have hlength := (fits_of_read hread).length_toBytes_le
  exact (read_take_eq_ok_iff (by omega)).2 hread

/-- They are the body as well. -/
theorem exists_readMethodBody_take_iff (hread : MethodHeader.read data = .ok header) :
    (∃ h, readMethodBody (data.take (header.headerSize + header.codeSize)) = .ok (h, code)) ↔
      ∃ h, readMethodBody data = .ok (h, code) := by
  constructor
  · rintro ⟨h, hbody⟩
    cases (MethodHeader.read_take_announced hread).symm.trans (read_of_readMethodBody hbody)
    exact ⟨header, (readMethodBody_take_eq_ok_iff (Nat.le_refl _)).1 hbody⟩
  · rintro ⟨h, hbody⟩
    cases hread.symm.trans (read_of_readMethodBody hbody)
    exact ⟨header, (readMethodBody_take_eq_ok_iff (Nat.le_refl _)).2 hbody⟩

/-- The header at the front of bytes, if there is one. -/
def MethodHeader.front? (data : Bytes) : Option MethodHeader := (read data).toOption

theorem MethodHeader.front?_eq_some_iff : front? data = some header ↔ read data = .ok header := by
  rw [front?]
  cases read data with
  | error e => exact ⟨nofun, nofun⟩
  | ok h => simp [Except.toOption]

/-- The window has room for the fields of every header. -/
theorem MethodHeader.front?_window (data : Bytes) : front? (data.take ManagedImage.maxMethodHeader) = front? data :=
  Option.ext fun header => by
    rw [front?_eq_some_iff, front?_eq_some_iff]
    exact read_take_eq_ok_iff header.length_toBytes_le

theorem Assembly.codeIn?_eq_some_iff :
    codeIn? (some data) = some code ↔ ∃ header, readMethodBody data = .ok (header, code) := by
  -- Without bytes there is no header, so nothing has to be said about them.
  have hcode : codeIn? (some data) = (readMethodBody data).toOption.map (·.2) := by cases data <;> rfl
  rw [hcode]
  cases readMethodBody data with
  | error e => simp [Except.toOption]
  | ok body =>
    obtain ⟨header, code'⟩ := body
    simp [Except.toOption]

/-- The bytes that a header announces hold the code that all bytes hold. -/
theorem Assembly.codeIn?_announced :
    codeIn? ((MethodHeader.front? data).map fun header => data.take (header.headerSize + header.codeSize)) = some code ↔
      ∃ header, readMethodBody data = .ok (header, code) := by
  cases hheader : MethodHeader.front? data with
  | none =>
    refine ⟨nofun, ?_⟩
    rintro ⟨header, hbody⟩
    rw [MethodHeader.front?_eq_some_iff.2 (read_of_readMethodBody hbody)] at hheader
    contradiction
  | some header =>
    rw [Option.map_some, codeIn?_eq_some_iff]
    exact exists_readMethodBody_take_iff (MethodHeader.front?_eq_some_iff.1 hheader)

/-! ### Sources of bytes -/

/-- Where bytes are found: at most so many from an address on, or nothing if the address leads nowhere.  Finding them
may change a state. -/
abbrev DataSource (σ : Type) := (address count : Nat) → StateM σ (Option Bytes)

/-- All that a header announces, if there is one. -/
def DataSource.announced (source : DataSource σ) (address : Nat) : Option MethodHeader → StateM σ (Option Bytes)
  | some header => source address (header.headerSize + header.codeSize)
  | none => return none

/-- Bodies that are fetched: first a window for the header, then all that the header announces. -/
def BodySource.ofData (source : DataSource σ) : BodySource (StateM σ) := fun address => do
  if address = 0 then return none
  source.announced address ((← source address ManagedImage.maxMethodHeader).bind MethodHeader.front?)

/-- At each address there are the bytes `available`, of which as many are given as are asked for, or there is nothing.
A second time there are the same. -/
structure DataSource.Supplies (source : DataSource σ) (available : σ → Nat → Option Bytes) : Prop where
  given (s : σ) (address count : Nat) : 0 < count →
    ((source address count).run s).1 = (available s address).map (·.take count)
  kept (s : σ) (address count : Nat) : available ((source address count).run s).2 address = available s address

/-- Bodies are those that are read when all bytes are taken at once.  The header found in the window is found again in
the bytes that are fetched. -/
structure BodySource.Agrees (bodies : BodySource (StateM σ)) (source : DataSource σ)
    (available : σ → Nat → Option Bytes) : Prop where
  code (a : Assembly) (m : Method) (s : σ) (code : Bytes) : m.assembly = a.name →
    Metadata.Token.table? m.token = some .methodDef →
    (((a.code? bodies m).run s).1 = some code ↔
      m.rva ≠ 0 ∧ ∃ bytes header, available s m.rva = some bytes ∧ readMethodBody bytes = .ok (header, code))
  header (s : σ) (address : Nat) : address ≠ 0 →
    ((source address ManagedImage.maxMethodHeader).run s).1.bind MethodHeader.front? =
      ((bodies address).run s).1.bind MethodHeader.front?

section Agrees

variable {source : DataSource σ} {available : σ → Nat → Option Bytes} {s : σ} {address : Nat}

theorem DataSource.Supplies.window (hsource : source.Supplies available) :
    ((source address ManagedImage.maxMethodHeader).run s).1.bind MethodHeader.front? =
      (available s address).bind MethodHeader.front? := by
  rw [hsource.given s address _ (by decide), Option.bind_map]
  exact congrArg _ (funext MethodHeader.front?_window)

/-- What is fetched is the part of the available bytes that their header announces. -/
theorem DataSource.Supplies.fetched (hsource : source.Supplies available) (haddress : address ≠ 0) :
    ((BodySource.ofData source address).run s).1 = (available s address).bind fun bytes =>
      (MethodHeader.front? bytes).map fun header => bytes.take (header.headerSize + header.codeSize) := by
  rw [BodySource.ofData, if_neg haddress]
  change ((source.announced address (((source address ManagedImage.maxMethodHeader).run s).1.bind _)).run _).1 = _
  rw [hsource.window]
  cases havailable : available s address with
  | none => rfl
  | some bytes =>
    rw [Option.bind_some, Option.bind_some]
    cases hheader : MethodHeader.front? bytes with
    | none => rfl
    | some header =>
      have hfits := MethodHeader.fits_of_read (MethodHeader.front?_eq_some_iff.1 hheader)
      have hsize := hfits.headerSize_pos
      change ((source address (header.headerSize + header.codeSize)).run ((source address _).run s).2).1 = _
      rw [hsource.given _ _ _ (by omega), hsource.kept, havailable]
      rfl

/-- The bytes that are fetched are read as all of them are. -/
theorem DataSource.Supplies.agrees (hsource : source.Supplies available) :
    (BodySource.ofData source).Agrees source available where
  code a m s code hassembly htoken := by
    by_cases hrva : m.rva = 0
    · have haddress : a.bodyAddress? m = none := if_pos (.inr (.inr hrva))
      rw [Assembly.code?, haddress]
      exact ⟨nofun, fun h => absurd hrva h.1⟩
    · have haddress : a.bodyAddress? m = some m.rva := if_neg (by simp [hassembly, htoken, hrva])
      rw [Assembly.code?, haddress]
      change Assembly.codeIn? ((BodySource.ofData source m.rva).run s).1 = some code ↔ _
      rw [hsource.fetched hrva]
      cases available s m.rva with
      | none => simp [Assembly.codeIn?]
      | some bytes =>
        rw [Option.bind_some, Assembly.codeIn?_announced]
        simp [hrva]
  header s address haddress := by
    rw [hsource.window, hsource.fetched haddress]
    cases available s address with
    | none => rfl
    | some bytes =>
      rw [Option.bind_some, Option.bind_some]
      cases hheader : MethodHeader.front? bytes with
      | none => rfl
      | some header =>
        rw [MethodHeader.front?_eq_some_iff] at hheader
        exact (MethodHeader.front?_eq_some_iff.2 (MethodHeader.read_take_announced hheader)).symm

end Agrees

/-! ### Images -/

namespace Image

variable {image : Image} {last : Option Section} {address : Nat}

/-- Looking for a section once more finds the same, and remembers nothing else. -/
theorem sectionAt_sectionAt (image : Image) (address : Nat) (last : Option Section) :
    image.sectionAt address (image.sectionAt address last).2 = image.sectionAt address last := by
  cases hfound : (last.toList ++ image.sections).find? (·.covers address) with
  | none => simp [sectionAt, hfound]
  | some s =>
    have hcovers := List.find?_some hfound
    simp [sectionAt, hfound, hcovers]

/-- At most so many bytes at an address. -/
def dataAt (image : Image) : DataSource (Option Section) := fun address count => do
  return (← image.extentAt address).map (image.bytesOf · count)

/-- All bytes at an address. -/
def available (image : Image) (last : Option Section) (address : Nat) : Option Bytes :=
  (image.extentIn address (image.sectionAt address last).1).map fun e => image.data.slice e.start (e.stop - e.start)

theorem supplies_dataAt (image : Image) : image.dataAt.Supplies image.available where
  given last address count _ := by
    change (image.extentIn address (image.sectionAt address last).1).map _ = _
    rw [available, Option.map_map]
    refine congrArg (Option.map · _) (funext fun e => ?_)
    change _ = (image.data.slice e.start (e.stop - e.start)).take count
    rw [bytesOf, Nat.min_comm, Buffer.slice_min]
  kept last address count := by
    change image.available (image.sectionAt address last).2 address = _
    rw [available, available, sectionAt_sectionAt]

theorem run_dataAt (image : Image) (address count : Nat) (last : Option Section) :
    (image.dataAt address count).run last =
      ((image.extentIn address (image.sectionAt address last).1).map (image.bytesOf · count),
        (image.sectionAt address last).2) :=
  rfl

end Image

/-- A method of an image is looked up once, for the window and for what its header announces. -/
theorem ManagedImage.bodies_eq (m : ManagedImage) : m.bodies = .ofData m.image.dataAt := by
  funext address last
  cases address with
  | zero => rfl
  | succ address =>
    have hagain := m.image.sectionAt_sectionAt (address + 1) last
    rw [BodySource.ofData, if_neg (Nat.succ_ne_zero address)]
    change ((m.image.extentIn (address + 1) (m.image.sectionAt (address + 1) last).1).bind
        fun e => methodIn (m.image.bytesOf e), (m.image.sectionAt (address + 1) last).2) =
      (m.image.dataAt.announced (address + 1)
        (((m.image.dataAt (address + 1) maxMethodHeader).run last).1.bind MethodHeader.front?)).run
        (m.image.sectionAt (address + 1) last).2
    rw [Image.run_dataAt]
    cases hextent : m.image.extentIn (address + 1) (m.image.sectionAt (address + 1) last).1 with
    | none => rfl
    | some e =>
      change ((MethodHeader.front? (m.image.bytesOf e maxMethodHeader)).bind _, _) =
        (m.image.dataAt.announced (address + 1) (MethodHeader.front? (m.image.bytesOf e maxMethodHeader))).run _
      cases MethodHeader.front? (m.image.bytesOf e maxMethodHeader) with
      | none => rfl
      | some header =>
        change _ = (m.image.dataAt (address + 1) (header.headerSize + header.codeSize)).run _
        rw [Image.run_dataAt, hagain, hextent]
        rfl

/-- Bodies that are fetched in two steps agree with reading all bytes at once, from every source that supplies the same
bytes again, and so do the bodies of an image. -/
theorem bodies_fetched :
    (∀ (σ : Type) (source : DataSource σ) (available : σ → Nat → Option Bytes), source.Supplies available →
      (BodySource.ofData source).Agrees source available) ∧
    ∀ m : ManagedImage, m.image.dataAt.Supplies m.image.available ∧
      m.bodies.Agrees m.image.dataAt m.image.available := by
  refine ⟨fun _ _ _ hsource => hsource.agrees, fun m => ⟨m.image.supplies_dataAt, ?_⟩⟩
  rw [m.bodies_eq]
  exact m.image.supplies_dataAt.agrees

/-- The last three bytes of a section are a body, in front of bytes that do not belong to it. -/
private def shortImage : Image where
  data := #[0xFF, 0x0A, 0x17, 0x2A, 0xFF]
  sections := [⟨0x2000, 4, 0, 4⟩]
  headerSize := 0
  entryPoint := 0
  managedHeader := none

private def shortAssembly : Assembly := .ofMetadata ⟨#[], "", [], 0, []⟩

private def shortMethod : Method where
  declaringType := "Game"
  name := "One"
  assembly := shortAssembly.name
  token := 0x06000001
  rva := 0x2001

theorem bodies_fetched_shortMethod :
    shortImage.dataAt.Supplies shortImage.available ∧
      ((shortAssembly.code? (.ofData shortImage.dataAt) shortMethod).run none).1 = some [0x17, 0x2A] := by
  have hsource := shortImage.supplies_dataAt
  refine ⟨hsource, ((bodies_fetched.1 _ _ _ hsource).code _ _ _ _ rfl (by decide)).2 ⟨by decide, ?_⟩⟩
  exact ⟨[0x0A, 0x17, 0x2A], { isFat := false, headerSize := 1, codeSize := 2 }, rfl, rfl⟩

end CilProbe
