import CilProbe.Proofs.Synthesis.Described

/-!
# Text for a parameter

Text is read by a reader for its type or looked up among the members of an enumeration.  Either way the value of the
parameter is what was read, and a reason why nothing was read is told with the names of the parameter and of its type
(`Synthesis.told`).
-/

namespace CilProbe.Synthesis

variable {τ μ σ : Type} {h : Host τ μ σ} {p : Parameter τ} {kind : TypeKind} {s s' s'' : Session σ}

/-- What has been read of the text for a parameter, as the end of an action. -/
def told (p : Parameter τ) (text : String) (read : Except ConversionReason Value) : Except Raised Value :=
  read.mapError fun reason => .fault (.conversion ⟨p.name, p.typeName, some text, reason⟩)

theorem run_convert_of_told {text : String} {read : Except ConversionReason Value}
    (hkind : (h.typeKind p.type).run s = (.ok kind, s')) (hstring : kind ≠ .string)
    (hread : (readerFor h p kind text).run s' = (told p text read, s'')) :
    (convert h p text).run s = (told p text read, s'') := by
  rw [convert, run_bind_of_ok hkind, if_neg hstring]
  cases read with
  | ok v =>
    rw [run_bind_of_ok (Action.run_attempt_of_ok hread)]
    rfl
  | error reason =>
    rw [run_bind_of_ok (Action.run_attempt_of_fault hread)]
    rfl

/-- The type of the parameter is neither that of strings nor an enumeration, so that its name decides on the reader. -/
def ReadByName (h : Host τ μ σ) (p : Parameter τ) (s s' : Session σ) : Prop :=
  ∃ kind, (h.typeKind p.type).run s = (.ok kind, s') ∧ kind ≠ .string ∧ kind ≠ .enum

/-- Text for a type that has a reader is what the reader makes of it. -/
theorem run_convert_of_reader {read : String → Except ConversionReason Value}
    (hread : Conversion.reader? p.typeName = some read) (hnamed : ReadByName h p s s') (text : String) :
    (convert h p text).run s = (told p text (read text), s') := by
  obtain ⟨kind, hkind, hstring, henum⟩ := hnamed
  apply run_convert_of_told hkind hstring
  rw [readerFor, if_neg henum, hread]
  dsimp only
  cases read text with
  | ok v => rfl
  | error reason => rfl

/-- Text for an enumeration is looked up among its members. -/
theorem run_convert_of_members {members : List (String × Value)} (hkind : (h.typeKind p.type).run s = (.ok .enum, s'))
    (hmembers : (h.enumMembers p.type).run s' = (.ok members, s'')) (text : String) :
    (convert h p text).run s = (told p text (Conversion.enumMember members text), s'') := by
  apply run_convert_of_told hkind (by decide)
  rw [readerFor, if_pos rfl, run_bind_of_ok hmembers]
  cases Conversion.enumMember members text with
  | ok v => rfl
  | error reason => rfl

end CilProbe.Synthesis
