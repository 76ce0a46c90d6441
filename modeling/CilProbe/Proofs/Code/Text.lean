import CilProbe.Proofs.Code.Listing

/-!
# Lines can be written

Behind a branch only an offset can be written.  The line of a branch always has one, and looking up tokens does not
change it, so every line of a listing has a text (`Listing.tryRender_resolve`).
-/

namespace CilProbe

variable {ρ : Type}

/-- Whether nothing or an offset stands behind a branch. -/
def Line.Writable (line : Line ρ) : Prop :=
  line.opcode.isBranch → line.operand = .none ∨ ∃ offset, line.operand = .target offset

theorem Line.Writable.tryRender {line : Line ρ} (h : line.Writable) (real : Binary64 → String)
    (resolved : ρ → Option String) : line.tryRender real resolved = some (line.render real resolved) := by
  suffices (line.tryRender real resolved).isSome by
    obtain ⟨text, htext⟩ := Option.isSome_iff_exists.1 this
    rw [Line.render, htext]
    rfl
  rw [Line.tryRender]
  split
  · next hbranch =>
    obtain hnone | ⟨offset, htarget⟩ := h hbranch
    · rw [hnone]; rfl
    · rw [htarget]; rfl
  · split <;> rfl

namespace Item

private theorem exists_jump {kind : OperandKind} (hk : kind = .shortInlineBrTarget ∨ kind = .inlineBrTarget)
    {argument : Argument} (h : argument.Fits kind) : ∃ distance, argument = .jump distance := by
  rcases hk with rfl | rfl <;> cases argument <;> simp_all [Argument.Fits]

private theorem writable_line {item : Item} (h : item.Valid) (offset : Nat) : (item.line offset).Writable := by
  intro hbranch
  cases item with
  | listed opcode argument =>
    have hk : opcode.kind = .shortInlineBrTarget ∨ opcode.kind = .inlineBrTarget :=
      (Bool.or_eq_true_iff.1 hbranch).imp of_decide_eq_true of_decide_eq_true
    obtain ⟨distance, rfl⟩ := exists_jump hk h.2
    exact Or.inr ⟨_, rfl⟩
  | unlisted b => exact Or.inl rfl
  | unlistedExtended c => exact Or.inl rfl

private theorem writable_lines {items : List Item} (h : AllReadable items) (offset : Nat) :
    ∀ line ∈ lines offset items, line.Writable := by
  induction items generalizing offset with
  | nil => simp [lines]
  | cons item items ih =>
    intro line hline
    rcases List.mem_cons.1 hline with rfl | hline
    · exact writable_line (h item (by simp)).1 offset
    · exact ih (fun i hi => h i (by simp [hi])) _ line hline

end Item

namespace Listing

private theorem writable_resolved {line : Line Empty} (h : line.Writable) (resolve : Nat → Id (Option ρ)) :
    Line.Writable { line with operand := Id.run (resolveOperand resolve line.opcode line.operand) } := by
  intro hbranch
  obtain hnone | ⟨offset, htarget⟩ := h hbranch
  · rw [hnone]
    exact Or.inl rfl
  · rw [htarget]
    exact Or.inr ⟨offset, rfl⟩

/-- Every line of the listing of code has a text, whatever its tokens name. -/
theorem tryRender_resolve (lookup : Nat → Option ρ) (code : Bytes) (real : Binary64 → String)
    (resolved : ρ → Option String) :
    ∀ line ∈ ((ofCode code).resolve lookup).lines,
      line.tryRender real resolved = some (line.render real resolved) := by
  obtain ⟨items, rest, hitems, rfl, hrest⟩ := Item.exists_assemble_append code
  rw [lines_resolve, (ofCode_append hitems hrest).1]
  intro line hline
  obtain ⟨line', hline', rfl⟩ := List.mem_map.1 hline
  exact (writable_resolved (Item.writable_lines hitems 0 line' hline') _).tryRender real resolved

end Listing

end CilProbe
