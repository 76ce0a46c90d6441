import CilProbe.Code.DecodeError
import CilProbe.Proofs.Code.Listing

/-!
# Looking up tokens

Where instructions begin and end does not depend on what tokens name.  A listing whose tokens are looked up is the
listing without answers in which each answered token is replaced, and every token is asked for once, in the order of the
lines (`Listing.resolve_separable`).  An `ldstr` whose token names no literal string asks for nothing.

If the code has to be complete, the only other outcome is an error.  It names the offset behind the last line
(`Listing.start_of_shortfall`).
-/

namespace CilProbe

variable {ρ : Type}

/-- The token that is looked up for a line, if any. -/
def Line.asked? (line : Line ρ) : Option Nat :=
  match line.operand with
  | .unresolved token => if line.opcode.mnemonic = "ldstr" ∧ token / 2 ^ 24 ≠ 0x70 then none else some token
  | _ => none

/-- The line with the answer for its token, if there is one. -/
def Line.answered (answer : Nat → Option ρ) (line : Line ρ) : Line ρ :=
  match line.asked?.bind answer with
  | some value => { line with operand := .resolved value }
  | none => line

/-! ### Literal strings -/

/-- Whether the operands of an opcode are literal strings exactly if it is `ldstr`. -/
def Opcode.KnowsStrings (op : Opcode) : Prop := op.kind = .inlineString ↔ op.mnemonic = "ldstr"

instance (op : Opcode) : Decidable op.KnowsStrings := inferInstanceAs (Decidable (_ ↔ _))

private theorem Opcode.knowsStrings_of_mem : ∀ op ∈ all, op.KnowsStrings := by decide +kernel

private theorem Item.knowsStrings_of_mem_lines {items : List Item} (h : AllReadable items) {offset : Nat}
    {line : Line Empty} (hline : line ∈ lines offset items) : line.opcode.KnowsStrings := by
  induction items generalizing offset with
  | nil => simp [lines] at hline
  | cons item items ih =>
    rcases List.mem_cons.1 hline with rfl | hline
    · cases item with
      | listed opcode argument => exact Opcode.knowsStrings_of_mem opcode h.head.1.1
      | unlisted b => exact show Opcode.unknown.KnowsStrings by decide
      | unlistedExtended c => exact show Opcode.unknownExtended.KnowsStrings by decide
    · exact ih h.tail hline

namespace Listing

private theorem knowsStrings_of_mem_lines {code : Bytes} {line : Line Empty} (h : line ∈ (ofCode code).lines) :
    line.opcode.KnowsStrings := by
  obtain ⟨items, rest, hitems, rfl, hrest⟩ := Item.exists_assemble_append code
  rw [(ofCode_append hitems hrest).1] at h
  exact Item.knowsStrings_of_mem_lines hitems h

/-- A token is looked up unless it stands behind `ldstr` and names no literal string. -/
private theorem asked?_unresolved {op : Opcode} (h : op.KnowsStrings) (offset token size : Nat) :
    (⟨offset, op, .unresolved token, size⟩ : Line ρ).asked? = if isResolvable op token then some token else none := by
  have htable : Metadata.Token.isString token = true ↔ token / 2 ^ 24 = 0x70 := by
    rw [Metadata.Token.isString, beq_iff_eq]
    omega
  have hresolvable : isResolvable op token = true ↔ ¬(op.mnemonic = "ldstr" ∧ token / 2 ^ 24 ≠ 0x70) := by
    rw [isResolvable, Bool.or_eq_true, bne_iff_ne, htable, not_and, not_not, ← show _ ↔ _ from h, imp_iff_not_or]
  simp only [Line.asked?, hresolvable, ite_not]

/-! ### One line -/

/-- A look-up with fixed answers that writes down what it is asked for. -/
def logged (answer : Nat → Option ρ) (token : Nat) : StateM (List Nat) (Option ρ) := do
  modify (· ++ [token])
  return answer token

/-- A line when tokens are looked up with a function. -/
private def resolvedLine (answer : Nat → Option ρ) (line : Line Empty) : Line ρ :=
  { line with operand := Id.run (resolveOperand (fun token => pure (answer token)) line.opcode line.operand) }

private theorem resolveLine_logged (answer : Nat → Option ρ) {line : Line Empty} (h : line.opcode.KnowsStrings)
    (log : List Nat) :
    (do return { line with operand := ← resolveOperand (logged answer) line.opcode line.operand } :
      StateM (List Nat) (Line ρ)).run log = (resolvedLine answer line, log ++ line.asked?.toList) := by
  rcases line with ⟨offset, op, operand, size⟩
  cases operand with
  | unresolved token =>
    rw [asked?_unresolved h]
    simp only [resolvedLine, resolveOperand]
    split
    · rfl
    · exact congrArg (Prod.mk _) (List.append_nil log).symm
  | resolved value => exact value.elim
  | _ => exact congrArg (Prod.mk _) (List.append_nil log).symm

/-- Looking up the token of a line is answering the one that it asks for without answers. -/
private theorem resolvedLine_eq (answer : Nat → Option ρ) (line : Line Empty) (h : line.opcode.KnowsStrings) :
    resolvedLine answer line = (resolvedLine (fun _ => none) line).answered answer ∧
      (resolvedLine (fun _ => none) line : Line ρ).asked? = line.asked? := by
  rcases line with ⟨offset, op, operand, size⟩
  cases operand with
  | unresolved token =>
    have hbare : resolvedLine (fun _ => none) ⟨offset, op, .unresolved token, size⟩ =
        (⟨offset, op, .unresolved token, size⟩ : Line ρ) := by
      simp only [resolvedLine, resolveOperand]
      split <;> rfl
    rw [hbare, Line.answered, asked?_unresolved h, asked?_unresolved h]
    refine ⟨?_, rfl⟩
    simp only [resolvedLine, resolveOperand]
    split
    · cases h : answer token <;> simp [h]
    · rfl
  | resolved value => exact value.elim
  | _ => exact ⟨rfl, rfl⟩

/-! ### All lines -/

private theorem mapM_logged (answer : Nat → Option ρ) {lines : List (Line Empty)}
    (h : ∀ line ∈ lines, line.opcode.KnowsStrings) (log : List Nat) :
    ((lines.mapM fun line => do
        return { line with operand := ← resolveOperand (logged answer) line.opcode line.operand } :
      StateM (List Nat) (List (Line ρ))).run log) =
      (lines.map (resolvedLine answer), log ++ lines.filterMap Line.asked?) := by
  induction lines generalizing log with
  | nil => exact congrArg (Prod.mk _) (List.append_nil log).symm
  | cons line lines ih =>
    have htail := ih (fun l hl => h l (by simp [hl])) (log ++ line.asked?.toList)
    rw [List.mapM_cons, StateT.run_bind, resolveLine_logged answer (h line (by simp))]
    change StateT.run (List.mapM _ lines >>= fun tail => pure (resolvedLine answer line :: tail)) _ = _
    rw [StateT.run_bind, htail]
    change (resolvedLine answer line :: lines.map (resolvedLine answer), _) = _
    rw [List.append_assoc, ← List.map_cons]
    cases hasked : line.asked? <;> simp [hasked]

private theorem resolveM_logged (answer : Nat → Option ρ) (code : Bytes) :
    ((ofCode code).resolveM (logged answer)).run [] =
      ((ofCode code).resolve answer, (ofCode code).lines.filterMap Line.asked?) := by
  have hresolve : (ofCode code).resolve answer =
      ⟨(ofCode code).lines.map (resolvedLine answer), (ofCode code).shortfall⟩ :=
    congrArg (Listing.mk · _) (lines_resolve answer (ofCode code))
  rw [resolveM, StateT.run_bind, mapM_logged answer (fun _ h => knowsStrings_of_mem_lines h), hresolve]
  rfl

/-! ### Code that has to be complete -/

/-- The offset of the instruction that is not complete is where the lines end. -/
theorem start_of_shortfall {code : Bytes} {s : Shortfall} (h : (ofCode code).shortfall = some s) :
    s.start = (ofCode code).covered := by
  obtain ⟨items, rest, hitems, rfl, hrest⟩ := Item.exists_assemble_append code
  rw [covered, (ofCode_append hitems hrest).1, Item.sum_size_lines]
  rw [ofCode, continued_assemble hitems] at h
  rcases hrest with rfl | hrest
  · rw [continued] at h
    contradiction
  · obtain ⟨k, hk⟩ := Instruction.exists_error_of_incomplete hrest
    rw [continued_of_error hrest.ne_nil hk, Option.some.injEq] at h
    rw [← h, Nat.zero_add]

theorem ofCompleteCode_of_complete {code : Bytes} (h : (ofCode code).shortfall = none) :
    ofCompleteCode code = .ok (ofCode code) := by
  simp only [ofCompleteCode, h]

/-- The error for truncated code names the offset where its lines end. -/
theorem exists_error_of_truncated {code : Bytes} (h : (ofCode code).truncated = true) :
    ∃ error flaw, ofCompleteCode code = .error error ∧
      error.message =
        s!"Method body is truncated at IL_{Text.hex 4 (ofCode code).covered} ({code.length} bytes): " ++ flaw := by
  obtain ⟨s, hs⟩ := Option.isSome_iff_exists.1 h
  have herror : ofCompleteCode code = .error (.incompleteCode code.length s) := by simp only [ofCompleteCode, hs]
  rw [← start_of_shortfall hs]
  exact ⟨_, _, herror, rfl⟩

/-- Looking up tokens is separate from taking code apart.  The listing without answers says which tokens are looked up:
each of them is asked for once, in the order of the lines, and an answer replaces it in its line.  Nothing else of the
listing depends on the answers.  If the code has to be complete, the result is the same, or an error that names the
offset where the lines of truncated code end. -/
theorem resolve_separable (answer : Nat → Option ρ) (code : Bytes) :
    let bare : Listing ρ := (ofCode code).resolve fun _ => none
    let decode (listing : Listing Empty) : Listing ρ × List Nat := (listing.resolveM (logged answer)).run []
    let decoded := decode (ofCode code)
    let strict := (ofCompleteCode code).map decode
    decoded.1 = (ofCode code).resolve answer ∧
      decoded.1.lines = bare.lines.map (Line.answered answer) ∧
      decoded.1.lines.map Line.place = bare.lines.map Line.place ∧
      decoded.1.truncated = bare.truncated ∧
      decoded.2 = bare.lines.filterMap Line.asked? ∧
      (decoded.1.truncated = false → strict = .ok decoded) ∧
      (decoded.1.truncated = true → ∃ error flaw, strict = .error error ∧
        error.message =
          s!"Method body is truncated at IL_{Text.hex 4 decoded.1.covered} ({code.length} bytes): " ++ flaw) := by
  intro bare decode decoded strict
  have hdecoded : decoded = ((ofCode code).resolve answer, (ofCode code).lines.filterMap Line.asked?) :=
    resolveM_logged answer code
  have hlines : decoded.1.lines = (ofCode code).lines.map (resolvedLine answer) := by
    rw [hdecoded]
    exact lines_resolve answer (ofCode code)
  have hbare : bare.lines = (ofCode code).lines.map (resolvedLine fun _ => none) := lines_resolve _ _
  have hline : ∀ line ∈ (ofCode code).lines, _ ∧ _ := fun line h =>
    resolvedLine_eq answer line (knowsStrings_of_mem_lines h)
  have hshort : decoded.1.shortfall = (ofCode code).shortfall := by rw [hdecoded]; rfl
  refine ⟨congrArg Prod.fst hdecoded, ?_, ?_, ?_, ?_, ?_, ?_⟩
  · rw [hlines, hbare, List.map_map]
    exact List.map_congr_left fun line h => (hline line h).1
  · rw [hlines, hbare, List.map_map, List.map_map]
    rfl
  · exact congrArg Option.isSome hshort
  · rw [hbare, List.filterMap_map, hdecoded]
    exact List.filterMap_congr fun line h => (hline line h).2.symm
  · intro hcomplete
    have hnone : (ofCode code).shortfall = none := by
      rw [← hshort]
      exact Option.isNone_iff_eq_none.1 (Option.isSome_eq_false_iff.1 hcomplete)
    exact congrArg (Except.map decode) (ofCompleteCode_of_complete hnone)
  · intro htruncated
    have hcovered : decoded.1.covered = (ofCode code).covered := by
      rw [covered, hlines, List.map_map]
      rfl
    have hcut : (ofCode code).truncated = true := (congrArg Option.isSome hshort).symm.trans htruncated
    obtain ⟨error, flaw, herror, hmessage⟩ := exists_error_of_truncated hcut
    exact ⟨error, flaw, congrArg (Except.map decode) herror, by rw [hmessage, hcovered]⟩

/-- Two literal strings, one of them with a token that names none, and a call of an unknown method; then the same with
the first byte of another call behind it. -/
theorem resolve_separable_strings :
    let answer (token : Nat) : Option String := if token = 0x70000001 then some "text" else none
    let items : List Item := [.listed ⟨0x72, "ldstr", .inlineString, 1⟩ (.token 0x70000001),
      .listed ⟨0x72, "ldstr", .inlineString, 1⟩ (.token 0x0A000001),
      .listed ⟨0x28, "call", .inlineMethod, 1⟩ (.token 0x06000001)]
    let code := Item.assemble items
    let decode (listing : Listing Empty) : Listing String × List Nat := (listing.resolveM (logged answer)).run []
    (decode (ofCode code)).1.truncated = false ∧
      (ofCompleteCode code).map decode = .ok (decode (ofCode code)) ∧
      (decode (ofCode (code ++ [0x28]))).1.truncated = true ∧
      ∃ error flaw, (ofCompleteCode (code ++ [0x28])).map decode = .error error ∧
        error.message = s!"Method body is truncated at IL_{Text.hex 4 15} ({16} bytes): " ++ flaw := by
  intro answer items code decode
  have hitems : Item.AllReadable items := by decide +kernel
  have hcode : ofCode code = ⟨Item.lines 0 items, none⟩ := ofCode_assemble hitems
  have hread : Instruction.read [0x28] = .error 1 := rfl
  have hcut : ofCode (code ++ [0x28]) = ⟨Item.lines 0 items, some ⟨15, 16⟩⟩ := by
    rw [ofCode, continued_assemble hitems, continued_of_error (by simp) hread, List.append_nil, List.reverse_reverse]
    rfl
  have hcomplete : (decode (ofCode code)).1.truncated = false := by rw [hcode]; rfl
  have htruncated : (decode (ofCode (code ++ [0x28]))).1.truncated = true := by rw [hcut]; rfl
  have hcovered : (decode (ofCode (code ++ [0x28]))).1.covered = 15 := by rw [hcut]; rfl
  have hstrict := (resolve_separable answer (code ++ [0x28])).2.2.2.2.2.2 htruncated
  rw [hcovered] at hstrict
  exact ⟨hcomplete, (resolve_separable answer code).2.2.2.2.2.1 hcomplete, htruncated, hstrict⟩

end Listing

end CilProbe
