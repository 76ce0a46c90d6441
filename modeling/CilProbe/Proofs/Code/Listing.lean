import CilProbe.Code.Listing
import CilProbe.Proofs.Code.Item

/-!
# Listings cover the code

Code is a sequence of items and perhaps the beginning of one more (`Item.exists_assemble_append`), and its listing has
one line for each of these items (`Listing.ofCode_append`).  Two results follow.

* Whatever answers look-ups of tokens get, the lines cover the code from its first byte without a gap, up to its end or
  up to an instruction that is not complete (`Listing.covers_code`).
* The listing of assembled items is these items, one line each (`Listing.ofCode_assemble`).  The byte `FE` alone has to
  be left out (`Listing.ofCode_escape`).
-/

namespace CilProbe

namespace Item

/-- The line of an item at an offset. -/
def line (offset : Nat) (item : Item) : Line Empty :=
  let size := item.toBytes.length
  match item with
  | listed opcode argument =>
    let operand : Operand Empty := match argument with
      | .none => .none
      | .signed n => .int n
      | .index n => .int n
      | .single bits => .real (.ofSingleBits bits)
      | .double bits => .real ⟨.ofNat bits⟩
      | .token t => .unresolved t
      | .jump distance => .target (offset + size + distance)
      | .table distances => .cases distances.length
    ⟨offset, opcode, operand, size⟩
  | unlisted _ => ⟨offset, .unknown, .none, size⟩
  | unlistedExtended _ => ⟨offset, .unknownExtended, .none, size⟩

/-- The lines of items that stand one behind the other from an offset on. -/
def lines : (offset : Nat) → List Item → List (Line Empty)
  | _, [] => []
  | offset, item :: items => item.line offset :: lines (offset + item.toBytes.length) items

/-- The bytes of items, one behind the other. -/
def assemble (items : List Item) : Bytes := items.flatMap toBytes

/-- Whether every item is an instruction, and none the byte `FE` alone. -/
def AllReadable (items : List Item) : Prop := ∀ item ∈ items, item.Valid ∧ ¬item.IsEscape

instance (items : List Item) : Decidable (AllReadable items) :=
  inferInstanceAs (Decidable (∀ item ∈ items, item.Valid ∧ ¬item.IsEscape))

theorem assemble_cons (item : Item) (items : List Item) :
    assemble (item :: items) = item.toBytes ++ assemble items := rfl

theorem AllReadable.head {item : Item} {items : List Item} (h : AllReadable (item :: items)) :
    item.Valid ∧ ¬item.IsEscape := h item (by simp)

theorem AllReadable.tail {item : Item} {items : List Item} (h : AllReadable (item :: items)) :
    AllReadable items := fun i hi => h i (by simp [hi])

private theorem toLine_instruction {item : Item} (h : item.Valid) (hne : ¬item.IsEscape) (offset : Nat) :
    item.instruction.toLine offset = item.line offset := by
  have hsize := length_toBytes h hne
  cases item with
  | listed opcode argument =>
    rw [Instruction.toLine, ← hsize]
    cases argument <;> simp [line, instruction, Argument.toOperand]
  | unlisted b => rfl
  | unlistedExtended c => rfl

/-- Code is a sequence of items and, unless it ends with one of them, the beginning of one more. -/
theorem exists_assemble_append (code : Bytes) :
    ∃ items rest, AllReadable items ∧ code = assemble items ++ rest ∧ (rest = [] ∨ Incomplete rest) := by
  induction hn : code.length using Nat.strongRecOn generalizing code with
  | ind n ih =>
    cases hread : Instruction.read code with
    | error k =>
      by_cases hnil : code = []
      · exact ⟨[], [], by simp [AllReadable], by simp [hnil, assemble], Or.inl rfl⟩
      · exact ⟨[], code, by simp [AllReadable], by simp [assemble], Or.inr (Instruction.incomplete_of_read hnil hread)⟩
    | ok result =>
      obtain ⟨i, tail⟩ := result
      have hlt := Instruction.length_of_read hread
      obtain ⟨item, hv, hne, -, hcode⟩ := Instruction.exists_item_of_read hread
      obtain ⟨items, rest, hitems, htail, hrest⟩ := ih tail.length (by omega) tail rfl
      refine ⟨item :: items, rest, ?_, ?_, hrest⟩
      · intro item' hmem
        rcases List.mem_cons.1 hmem with rfl | hmem
        · exact ⟨hv, hne⟩
        · exact hitems item' hmem
      · rw [hcode, htail, assemble_cons, List.append_assoc]

end Item

/-! ### The listing of code -/

namespace Listing

private theorem continued_of_read {code rest : Bytes} {i : Instruction} (h : Instruction.read code = .ok (i, rest))
    (before : List (Line Empty)) (offset : Nat) :
    continued before offset code = continued (i.toLine offset :: before) (offset + i.size) rest := by
  cases code with
  | nil => contradiction
  | cons b bs =>
    rw [continued]
    split
    · next hk => rw [h] at hk; contradiction
    · next hok =>
      rw [h] at hok
      cases hok
      rfl

theorem continued_of_error {code : Bytes} {k : Nat} (hne : code ≠ []) (h : Instruction.read code = .error k)
    (before : List (Line Empty)) (offset : Nat) :
    continued before offset code = ⟨before.reverse, some ⟨offset, offset + k⟩⟩ := by
  cases code with
  | nil => exact absurd rfl hne
  | cons b bs =>
    rw [continued]
    split
    · next hk => rw [h] at hk; cases hk; rfl
    · next hok => rw [h] at hok; contradiction

theorem continued_assemble {items : List Item} (h : Item.AllReadable items) (before : List (Line Empty))
    (offset : Nat) (rest : Bytes) :
    continued before offset (Item.assemble items ++ rest) =
      continued ((Item.lines offset items).reverse ++ before) (offset + (Item.assemble items).length) rest := by
  induction items generalizing before offset with
  | nil => rfl
  | cons item items ih =>
    obtain ⟨hv, hne⟩ := h.head
    have hread := Instruction.read_toBytes hv hne (Item.assemble items ++ rest)
    rw [Item.assemble_cons, List.append_assoc, continued_of_read hread, Item.toLine_instruction hv hne,
      ← Item.length_toBytes hv hne, ih h.tail, Item.lines, List.reverse_cons, List.append_assoc, List.length_append,
      Nat.add_assoc]
    rfl

/-- The lines of code are those of its items; they are all of the code if nothing is left. -/
theorem ofCode_append {items : List Item} (h : Item.AllReadable items) {rest : Bytes}
    (hrest : rest = [] ∨ Incomplete rest) :
    (ofCode (Item.assemble items ++ rest)).lines = Item.lines 0 items ∧
      ((ofCode (Item.assemble items ++ rest)).shortfall = none ↔ rest = []) := by
  rw [ofCode, continued_assemble h]
  rcases hrest with rfl | hrest
  · rw [continued]
    simp
  · obtain ⟨k, hk⟩ := Instruction.exists_error_of_incomplete hrest
    rw [continued_of_error hrest.ne_nil hk]
    simp [hrest.ne_nil]

/-- The listing of assembled items is these items, with their offsets. -/
theorem ofCode_assemble {items : List Item} (h : Item.AllReadable items) :
    ofCode (Item.assemble items) = ⟨Item.lines 0 items, none⟩ := by
  obtain ⟨hlines, hshort⟩ := ofCode_append h (Or.inl rfl)
  rw [List.append_nil] at hlines hshort
  rw [← hlines, ← hshort.2 rfl]

/-- Code with a backward branch, a switch, an immediate below zero, a token and bytes that are no opcode. -/
theorem ofCode_assemble_mixed :
    let items : List Item := [.listed ⟨0x45, "switch", .inlineSwitch, 1⟩ (.table [-13, 2147483647]),
      .listed ⟨0x21, "ldc.i8", .inlineI8, 1⟩ (.signed (-9223372036854775808)), .unlisted 0x24,
      .listed ⟨0x2B, "br.s", .shortInlineBrTarget, 1⟩ (.jump (-24)), .unlistedExtended 0xFF,
      .listed ⟨0xFE07, "ldvirtftn", .inlineMethod, 2⟩ (.token 0xFFFFFFFF)]
    Item.AllReadable items ∧ ofCode (Item.assemble items) = ⟨Item.lines 0 items, none⟩ := by
  intro items
  have h : Item.AllReadable items := by decide +kernel
  exact ⟨h, ofCode_assemble h⟩

/-- The byte `FE` alone is listed as an opcode, but code that ends with it ends inside an instruction. -/
theorem ofCode_escape :
    ¬∀ items : List Item, (∀ item ∈ items, item.Valid) → ofCode (Item.assemble items) = ⟨Item.lines 0 items, none⟩ := by
  intro h
  have hvalid : ∀ item ∈ [Item.listed ⟨0xFE, "prefix1", .inlineNone, 1⟩ .none], item.Valid := by decide +kernel
  have hcode := h _ hvalid
  have hread : Instruction.read [0xFE] = .error 1 := rfl
  rw [ofCode, show Item.assemble _ = [0xFE] from rfl, continued_of_error (by simp) hread] at hcode
  simp at hcode

end Listing

/-! ### Covering -/

section

variable {ρ : Type}

/-- Lines that stand one behind the other from an offset on. -/
def Contiguous : (offset : Nat) → List (Line ρ) → Prop
  | _, [] => True
  | offset, line :: lines => line.offset = offset ∧ 1 ≤ line.size ∧ Contiguous (offset + line.size) lines

/-- Where a line stands and what its opcode is. -/
def Line.place (line : Line ρ) : Nat × Opcode × Nat := (line.offset, line.opcode, line.size)

/-- The number of bytes that the lines take. -/
def Listing.covered (l : Listing ρ) : Nat := (l.lines.map (·.size)).sum

end

namespace Item

theorem size_line (offset : Nat) (item : Item) : (item.line offset).size = item.toBytes.length := by
  cases item <;> rfl

theorem offset_line (offset : Nat) (item : Item) : (item.line offset).offset = offset := by
  cases item <;> rfl

theorem length_pos {item : Item} (h : item.Valid) (hne : ¬item.IsEscape) : 1 ≤ item.toBytes.length := by
  have hread := Instruction.read_toBytes h hne []
  have := Instruction.length_of_read hread
  rw [List.append_nil, List.length_nil] at this
  exact this

private theorem contiguous_lines {items : List Item} (h : AllReadable items) (offset : Nat) :
    Contiguous offset (lines offset items) := by
  induction items generalizing offset with
  | nil => trivial
  | cons item items ih =>
    refine ⟨offset_line offset item, ?_, ?_⟩
    · rw [size_line]
      exact length_pos h.head.1 h.head.2
    · rw [size_line]
      exact ih h.tail _

theorem sum_size_lines (offset : Nat) (items : List Item) :
    ((lines offset items).map (·.size)).sum = (assemble items).length := by
  induction items generalizing offset with
  | nil => rfl
  | cons item items ih =>
    rw [lines, List.map_cons, List.sum_cons, size_line, ih, assemble_cons, List.length_append]

end Item

namespace Listing

variable {σ ρ ρ' : Type}

private theorem place_mapM_resolve (resolve : Nat → StateM σ (Option ρ)) (lines : List (Line Empty)) (s : σ) :
    ((lines.mapM fun line => do
        return { line with operand := ← resolveOperand resolve line.opcode line.operand } :
      StateM σ (List (Line ρ))).run s).1.map Line.place = lines.map Line.place := by
  induction lines generalizing s with
  | nil => rfl
  | cons line lines ih =>
    rw [List.mapM_cons]
    exact congrArg (line.place :: ·) (ih _)

/-- Looking up tokens changes neither the places of the lines nor where the code falls short. -/
theorem resolveM_run (resolve : Nat → StateM σ (Option ρ)) (l : Listing Empty) (s : σ) :
    ((l.resolveM resolve).run s).1.lines.map Line.place = l.lines.map Line.place ∧
      ((l.resolveM resolve).run s).1.shortfall = l.shortfall :=
  ⟨place_mapM_resolve resolve l.lines s, rfl⟩

/-- Looking up tokens with a function is looking up those of each line. -/
theorem lines_resolve (lookup : Nat → Option ρ) (l : Listing Empty) :
    (l.resolve lookup).lines = l.lines.map fun line =>
      { line with operand := Id.run (resolveOperand (fun token => pure (lookup token)) line.opcode line.operand) } :=
  List.idRun_mapM

private theorem contiguous_of_place {lines : List (Line ρ)} {lines' : List (Line ρ')}
    (h : lines.map Line.place = lines'.map Line.place) {offset : Nat} (hc : Contiguous offset lines') :
    Contiguous offset lines := by
  induction lines generalizing lines' offset with
  | nil => trivial
  | cons line lines ih =>
    cases lines' with
    | nil => simp at h
    | cons line' lines' =>
      simp only [List.map_cons, List.cons.injEq, Line.place, Prod.mk.injEq] at h
      obtain ⟨⟨hoffset, -, hsize⟩, htail⟩ := h
      obtain ⟨hc₁, hc₂, hc₃⟩ := hc
      exact ⟨hoffset.trans hc₁, hsize ▸ hc₂, hsize ▸ ih htail hc₃⟩

private theorem map_size_of_place {lines : List (Line ρ)} {lines' : List (Line ρ')}
    (h : lines.map Line.place = lines'.map Line.place) : lines.map (·.size) = lines'.map (·.size) := by
  have := congrArg (List.map fun place : Nat × Opcode × Nat => place.2.2) h
  rwa [List.map_map, List.map_map] at this

/-- Whatever is answered when tokens are looked up, and whether or not it is answered: the lines stand one behind the
other from the first byte on, and each stands for an instruction of the code.  They take all bytes, unless the code goes
on with an instruction that is not complete; the listing says which. -/
theorem covers_code (resolve : Nat → StateM σ (Option ρ)) (s : σ) (code : Bytes) :
    let listing := ((ofCode code).resolveM resolve |>.run s).1
    Contiguous 0 listing.lines ∧
      (∃ items, Item.AllReadable items ∧ code.take listing.covered = Item.assemble items ∧
        listing.lines.map Line.place = (Item.lines 0 items).map Line.place) ∧
      (listing.truncated = false → listing.covered = code.length) ∧
      (listing.truncated = true → listing.covered < code.length ∧
        ∀ (item : Item) (rest : Bytes), item.Valid → ¬item.IsEscape →
          code.drop listing.covered ≠ item.toBytes ++ rest) ∧
      (listing.truncated = true ↔ Incomplete (code.drop listing.covered)) := by
  intro listing
  obtain ⟨items, rest, hitems, hcode, hrest⟩ := Item.exists_assemble_append code
  obtain ⟨hlines, hshort⟩ := ofCode_append hitems hrest
  obtain ⟨hplace, hshort'⟩ := resolveM_run resolve (ofCode code) s
  rw [← hcode] at hlines hshort
  rw [hlines] at hplace
  have hcovered : listing.covered = (Item.assemble items).length := by
    rw [covered, map_size_of_place hplace, Item.sum_size_lines]
  have htake : code.take listing.covered = Item.assemble items := by rw [hcovered, hcode, List.take_left]
  have hdrop : code.drop listing.covered = rest := by rw [hcovered, hcode, List.drop_left]
  have htruncated : listing.truncated = true ↔ rest ≠ [] := by
    rw [truncated, hshort', ← not_iff_not, not_not, ← hshort]
    simp
  refine ⟨contiguous_of_place hplace (Item.contiguous_lines hitems 0), ⟨items, hitems, htake, hplace⟩, ?_, ?_, ?_⟩
  · intro hf
    have hnil : rest = [] := by
      by_contra hne
      rw [htruncated.2 hne] at hf
      contradiction
    rw [hcovered, hcode, hnil, List.append_nil]
  · intro ht
    have hne := htruncated.1 ht
    refine ⟨?_, fun item tail hv hescape => ?_⟩
    · have hpos := List.length_pos_iff.2 hne
      rw [hcovered, hcode, List.length_append]
      omega
    · rw [hdrop]
      exact (hrest.resolve_left hne).ne_toBytes_append hv hescape tail
  · rw [hdrop, htruncated]
    exact ⟨hrest.resolve_left, Incomplete.ne_nil⟩

end Listing

end CilProbe
