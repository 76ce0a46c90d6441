import CilProbe.Proofs.Code.Listing

/-!
# Code in pieces

A listing depends on where the code starts only in its offsets and in what its branches lead to (`continued_eq`).  So
complete code may have more code behind it, which is then listed as if it stood alone, only further on
(`ofCode_append_of_complete`).

Code that is cut off anywhere keeps the instructions that end in front of the cut, and the rest of them is incomplete
(`Item.exists_take_assemble`), wherever in an opcode, a field or the table of a switch the cut is made
(`Instruction.incomplete_take`).  Both results together, with tokens looked up: `resolve_pieces`.
-/

namespace CilProbe

variable {ρ : Type}

/-! ### Lines further on -/

/-- The operand of the same instruction so many bytes further on: only the target of a branch moves. -/
def Operand.shifted (n : Nat) : Operand ρ → Operand ρ
  | .target offset => .target (offset + n)
  | operand => operand

/-- The line of the same instruction so many bytes further on. -/
def Line.shifted (n : Nat) (line : Line ρ) : Line ρ :=
  { line with offset := line.offset + n, operand := line.operand.shifted n }

/-- The same so many bytes further on. -/
def Shortfall.shifted (n : Nat) (s : Shortfall) : Shortfall := ⟨s.start + n, s.field + n⟩

/-- The offset behind the instruction of a line. -/
def Line.stop (line : Line ρ) : Nat := line.offset + line.size

namespace Item

theorem line_add (offset n : Nat) (item : Item) : item.line (offset + n) = (item.line offset).shifted n := by
  cases item with
  | listed opcode argument =>
    cases argument with
    | jump distance =>
      have htarget : ((offset + n : Nat) : Int) + (listed opcode (.jump distance)).toBytes.length + distance =
          offset + (listed opcode (.jump distance)).toBytes.length + distance + n := by omega
      simp only [line, Line.shifted, Operand.shifted, htarget]
    | _ => rfl
  | _ => rfl

theorem lines_add (offset n : Nat) (items : List Item) :
    lines (offset + n) items = (lines offset items).map (Line.shifted n) := by
  induction items generalizing offset with
  | nil => rfl
  | cons item items ih =>
    rw [lines, lines, List.map_cons, line_add, Nat.add_right_comm, ih]

theorem assemble_append (front back : List Item) : assemble (front ++ back) = assemble front ++ assemble back :=
  List.flatMap_append

theorem lines_append (offset : Nat) (front back : List Item) :
    lines offset (front ++ back) = lines offset front ++ lines (offset + (assemble front).length) back := by
  induction front generalizing offset with
  | nil => rfl
  | cons item front ih =>
    rw [List.cons_append, lines, lines, List.cons_append, ih, assemble_cons, List.length_append, Nat.add_assoc]

end Item

namespace Listing

/-- Where code starts, and what stands before it, changes its listing only in the offsets. -/
theorem continued_eq (before : List (Line Empty)) (offset : Nat) (code : Bytes) :
    continued before offset code =
      ⟨before.reverse ++ (ofCode code).lines.map (Line.shifted offset),
        (ofCode code).shortfall.map (Shortfall.shifted offset)⟩ := by
  obtain ⟨items, rest, hitems, rfl, hrest⟩ := Item.exists_assemble_append code
  have hlines : Item.lines offset items = (Item.lines 0 items).map (Line.shifted offset) := by
    rw [← Item.lines_add, Nat.zero_add]
  rw [ofCode, continued_assemble hitems, continued_assemble hitems, hlines]
  rcases hrest with rfl | hrest
  · rw [continued, continued]
    simp
  · obtain ⟨k, hk⟩ := Instruction.exists_error_of_incomplete hrest
    rw [continued_of_error hrest.ne_nil hk, continued_of_error hrest.ne_nil hk]
    simp [Shortfall.shifted, Nat.add_comm, Nat.add_left_comm]

/-- Behind complete code, other code is listed as if it stood alone, only further on. -/
theorem ofCode_append_of_complete {front : Bytes} (h : (ofCode front).shortfall = none) (back : Bytes) :
    ofCode (front ++ back) =
      ⟨(ofCode front).lines ++ (ofCode back).lines.map (Line.shifted front.length),
        (ofCode back).shortfall.map (Shortfall.shifted front.length)⟩ := by
  obtain ⟨items, rest, hitems, rfl, hrest⟩ := Item.exists_assemble_append front
  obtain ⟨hlines, hshort⟩ := ofCode_append hitems hrest
  obtain rfl := hshort.1 h
  rw [List.append_nil] at hlines ⊢
  rw [hlines, ofCode, continued_assemble hitems, continued_eq]
  simp

end Listing

/-! ### Cuts -/

namespace Instruction

/-- What is read does not depend on what follows. -/
theorem read_append {bs rest : Bytes} {i : Instruction} (h : read bs = .ok (i, rest)) (more : Bytes) :
    read (bs ++ more) = .ok (i, rest ++ more) := by
  obtain ⟨item, hv, hne, rfl, rfl⟩ := exists_item_of_read h
  rw [List.append_assoc, read_toBytes hv hne]

/-- A cut in front of the end of the first instruction leaves nothing, or the beginning of an instruction. -/
theorem incomplete_take {bs : Bytes} {k : Nat}
    (h : ∀ i rest, read bs = .ok (i, rest) → k + rest.length < bs.length) :
    bs.take k = [] ∨ Incomplete (bs.take k) := by
  by_cases hnil : bs.take k = []
  · exact Or.inl hnil
  · right
    cases hread : read (bs.take k) with
    | error n => exact incomplete_of_read hnil hread
    | ok result =>
      obtain ⟨i, rest⟩ := result
      have hwhole := read_append hread (bs.drop k)
      rw [List.take_append_drop] at hwhole
      have hlt := h i _ hwhole
      rw [List.length_append, List.length_drop] at hlt
      omega

end Instruction

theorem Incomplete.take {bs : Bytes} (h : Incomplete bs) (k : Nat) : bs.take k = [] ∨ Incomplete (bs.take k) := by
  obtain ⟨n, hn⟩ := Instruction.exists_error_of_incomplete h
  refine Instruction.incomplete_take fun i rest hok => ?_
  rw [hn] at hok
  contradiction

namespace Item

/-- Code that is cut off consists of its first items and perhaps the beginning of the item behind them. -/
theorem exists_take_assemble {items : List Item} (h : AllReadable items) {rest : Bytes}
    (hrest : rest = [] ∨ Incomplete rest) (k : Nat) :
    ∃ front back part, items = front ++ back ∧ (assemble items ++ rest).take k = assemble front ++ part ∧
      (part = [] ∨ Incomplete part) ∧ ∀ item ∈ back.head?, part.length < item.toBytes.length := by
  induction items generalizing k with
  | nil =>
    refine ⟨[], [], rest.take k, rfl, rfl, ?_, by simp⟩
    rcases hrest with rfl | hrest
    · exact Or.inl List.take_nil
    · exact hrest.take k
  | cons item items ih =>
    obtain ⟨hv, hne⟩ := h.head
    rw [assemble_cons, List.append_assoc]
    by_cases hk : k < item.toBytes.length
    · refine ⟨[], item :: items, (item.toBytes ++ (assemble items ++ rest)).take k, rfl, rfl, ?_, ?_⟩
      · refine Instruction.incomplete_take fun i tail hread => ?_
        rw [Instruction.read_toBytes hv hne] at hread
        cases hread
        simp only [List.length_append]
        omega
      · intro first hfirst
        obtain rfl : item = first := by simpa using hfirst
        rw [List.length_take]
        omega
    · obtain ⟨front, back, part, rfl, htake, hpart, hback⟩ := ih h.tail (k - item.toBytes.length)
      refine ⟨item :: front, back, part, rfl, ?_, hpart, hback⟩
      rw [List.take_append, List.take_of_length_le (by omega), htake, assemble_cons, List.append_assoc]

theorem stop_line (offset : Nat) (item : Item) : (item.line offset).stop = offset + item.toBytes.length := by
  rw [Line.stop, offset_line, size_line]

/-- Lines end behind the offset of the first one, and the last one ends with the code. -/
theorem stop_of_mem_lines {offset : Nat} {items : List Item} {line : Line Empty} (h : line ∈ lines offset items) :
    offset + (items.head?.elim 0 fun item => item.toBytes.length) ≤ line.stop ∧
      line.stop ≤ offset + (assemble items).length := by
  induction items generalizing offset with
  | nil => simp [lines] at h
  | cons item items ih =>
    rw [assemble_cons, List.length_append, List.head?_cons, Option.elim_some]
    rcases List.mem_cons.1 h with rfl | h
    · rw [stop_line]
      omega
    · have := ih h
      omega

theorem exists_mem_lines_stop (offset : Nat) {items : List Item} (h : items ≠ []) :
    ∃ line ∈ lines offset items, line.stop = offset + (assemble items).length := by
  obtain ⟨front, item, rfl⟩ := (List.eq_nil_or_concat' items).resolve_left h
  refine ⟨item.line (offset + (assemble front).length), ?_, ?_⟩
  · simp [lines_append, lines]
  · rw [stop_line, assemble_append, List.length_append]
    simp [assemble, Nat.add_assoc]

end Item

namespace Listing

/-- Code that is cut off keeps the lines that end at or in front of the cut, and it is complete exactly if there is
nothing in front of the cut or a line ends there. -/
theorem ofCode_take {code : Bytes} {k : Nat} (hk : k ≤ code.length) :
    (ofCode (code.take k)).lines = (ofCode code).lines.filter (fun line => line.stop ≤ k) ∧
      ((ofCode (code.take k)).shortfall = none ↔ k = 0 ∨ ∃ line ∈ (ofCode code).lines, line.stop = k) := by
  obtain ⟨items, rest, hitems, rfl, hrest⟩ := Item.exists_assemble_append code
  obtain ⟨front, back, part, rfl, htake, hpart, hback⟩ := Item.exists_take_assemble hitems hrest k
  have hfront : Item.AllReadable front := fun item hitem => hitems item (List.mem_append_left _ hitem)
  obtain ⟨hlines, hshort⟩ := ofCode_append hfront hpart
  have hlength : (Item.assemble front).length + part.length = k := by
    rw [← List.length_append, ← htake, List.length_take, Nat.min_eq_left hk]
  rw [htake, hlines, hshort, (ofCode_append hitems hrest).1, Item.lines_append, Nat.zero_add]
  have hinside : ∀ line ∈ Item.lines 0 front, line.stop ≤ (Item.assemble front).length := by
    intro line hline
    have := (Item.stop_of_mem_lines hline).2
    omega
  have houtside : ∀ line ∈ Item.lines (Item.assemble front).length back, k < line.stop := by
    intro line hline
    have hle := (Item.stop_of_mem_lines hline).1
    cases back with
    | nil => simp [Item.lines] at hline
    | cons item back =>
      have hlt := hback item rfl
      rw [List.head?_cons, Option.elim_some] at hle
      omega
  constructor
  · rw [List.filter_append, List.filter_eq_self.2, List.filter_eq_nil_iff.2, List.append_nil]
    · intro line hline
      have := houtside line hline
      simp only [decide_eq_true_eq]
      omega
    · intro line hline
      have := hinside line hline
      simp only [decide_eq_true_eq]
      omega
  · constructor
    · rintro rfl
      by_cases hnil : front = []
      · left
        rw [← hlength, hnil]
        rfl
      · obtain ⟨line, hline, hstop⟩ := Item.exists_mem_lines_stop 0 hnil
        refine Or.inr ⟨line, List.mem_append_left _ hline, ?_⟩
        rw [hstop, ← hlength, List.length_nil]
        omega
    · intro hcut
      rw [← List.length_eq_zero_iff]
      rcases hcut with rfl | ⟨line, hline, hstop⟩
      · omega
      · rcases List.mem_append.1 hline with hline | hline
        · have := hinside line hline
          omega
        · have := houtside line hline
          omega

/-! ### With tokens looked up -/

private theorem operand_shifted (lookup : Nat → Option ρ) (n : Nat) (opcode : Opcode) (operand : Operand Empty) :
    Id.run (resolveOperand (fun token => pure (lookup token)) opcode (operand.shifted n)) =
      (Id.run (resolveOperand (fun token => pure (lookup token)) opcode operand)).shifted n := by
  cases operand with
  | unresolved token =>
    change Id.run (resolveOperand _ opcode (.unresolved token)) = _
    simp only [resolveOperand]
    split
    · cases lookup token <;> simp [Operand.shifted]
    · rfl
  | resolved value => exact value.elim
  | _ => rfl

/-- Code can be listed in pieces.  Behind complete code, other code is listed as if it stood alone, but so many bytes
further on, which only branches notice.  And code that is cut off anywhere keeps exactly the lines that end at or in
front of the cut; it then falls short unless the cut is at the start of the code or at the end of a line. -/
theorem resolve_pieces (lookup : Nat → Option ρ) :
    let listing (code : Bytes) := (ofCode code).resolve lookup
    (∀ front back : Bytes, (listing front).truncated = false →
      (listing (front ++ back)).lines = (listing front).lines ++ (listing back).lines.map (Line.shifted front.length) ∧
      (listing (front ++ back)).truncated = (listing back).truncated) ∧
    ∀ (code : Bytes) (k : Nat), k ≤ code.length →
      (listing (code.take k)).lines = (listing code).lines.filter (fun line => line.stop ≤ k) ∧
      ((listing (code.take k)).truncated = true ↔ ¬(k = 0 ∨ ∃ line ∈ (listing code).lines, line.stop = k)) := by
  intro listing
  constructor
  · intro front back hcomplete
    have hshort : (ofCode front).shortfall = none :=
      Option.isNone_iff_eq_none.1 (Option.isSome_eq_false_iff.1 hcomplete)
    have happend := ofCode_append_of_complete hshort back
    constructor
    · simp only [listing, lines_resolve, happend, List.map_append, List.map_map]
      congr 2
      funext line
      simp only [Function.comp, Line.shifted, operand_shifted]
    · change (ofCode (front ++ back)).shortfall.isSome = (ofCode back).shortfall.isSome
      rw [happend, Option.isSome_map]
  · intro code k hk
    obtain ⟨hlines, hshort⟩ := ofCode_take hk
    constructor
    · simp only [listing, lines_resolve, hlines, List.filter_map]
      rfl
    · change (ofCode (code.take k)).shortfall.isSome ↔ _
      rw [← Option.not_isNone, Bool.not_eq_true', ← Bool.not_eq_true, Option.isNone_iff_eq_none, hshort]
      simp only [listing, lines_resolve, List.mem_map, exists_exists_and_eq_and]
      rfl

/-- A call and a backward branch behind a switch, and the three of them cut inside the call. -/
theorem resolve_pieces_switch :
    let lookup (token : Nat) : Option String := if token = 0x0A000001 then some "Console.WriteLine" else none
    let listing (code : Bytes) := (ofCode code).resolve lookup
    let front := Item.assemble [.listed ⟨0x45, "switch", .inlineSwitch, 1⟩ (.table [5])]
    let back := Item.assemble [.listed ⟨0x28, "call", .inlineMethod, 1⟩ (.token 0x0A000001),
      .listed ⟨0x2B, "br.s", .shortInlineBrTarget, 1⟩ (.jump (-7))]
    (listing front).truncated = false ∧ (front ++ back).length = 16 ∧
      (listing (front ++ back)).lines = (listing front).lines ++ (listing back).lines.map (Line.shifted 9) ∧
      ((listing ((front ++ back).take 12)).truncated = true ↔
        ¬(12 = 0 ∨ ∃ line ∈ (listing (front ++ back)).lines, line.stop = 12)) := by
  intro lookup listing front back
  have hfront : (listing front).truncated = false :=
    congrArg (fun l : Listing Empty => l.shortfall.isSome) (ofCode_assemble (by decide +kernel))
  exact ⟨hfront, rfl, ((resolve_pieces lookup).1 front back hfront).1, ((resolve_pieces lookup).2 _ 12 (by decide)).2⟩

end Listing

end CilProbe
