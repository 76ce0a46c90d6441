import CilProbe.Signature.Reader

/-!
# Readers with the same course

The readers of signatures put together what they are given, and nothing else: a relation between two kinds of
computations that is kept by putting computations together (`Alike`) holds between the readers of both kinds, if it
holds between the ways in which they name types.

* Types and method signatures: `Alike.typeWithin`, `Alike.method`.
* Signatures of fields and type arguments: `Alike.field`, `Alike.instantiation`.
-/

namespace CilProbe.Signature

variable {m n : Type → Type} [Monad m] [Flawed m] [Monad n] [Flawed n]

/-- A relation that holds between results and between flaws, and that is kept by going on. -/
structure Alike (R : (α : Type) → m α → n α → Prop) : Prop where
  pure {α : Type} (a : α) : R α (Pure.pure a) (Pure.pure a)
  bind {α β : Type} {x : m α} {y : n α} {f : α → m β} {g : α → n β} :
    R α x y → (∀ a, R β (f a) (g a)) → R β (x >>= f) (y >>= g)
  flawed {α : Type} (flaw : Flaw) : R α (Flawed.flawed flaw) (Flawed.flawed flaw)

namespace Alike

variable {R : (α : Type) → m α → n α → Prop} (hR : Alike R) {α ν : Type}
include hR

theorem number (c : Cursor) : R _ (readNumber c) (readNumber c) := by
  rw [readNumber, readNumber]
  split
  · exact hR.pure _
  · exact hR.flawed _

theorem times {step : StepIn m α} {step' : StepIn n α} (h : ∀ c, R _ (step c) (step' c)) (count : Nat) (c : Cursor) :
    R _ (readTimes step count c) (readTimes step' count c) := by
  induction count generalizing c with
  | zero => exact hR.pure _
  | succ count ih => exact hR.bind (h c) fun _ => hR.bind (ih _) fun _ => hR.pure _

theorem counted {step : StepIn m α} {step' : StepIn n α} (h : ∀ c, R _ (step c) (step' c)) (c : Cursor) :
    R _ (readCounted step c) (readCounted step' c) :=
  hR.bind (hR.number c) fun _ => hR.times h _ _

theorem methodWith {readType : StepIn m (TypeSig ν)} {readType' : StepIn n (TypeSig ν)}
    (h : ∀ c, R _ (readType c) (readType' c)) (c : Cursor) :
    R _ (readMethodWith readType c) (readMethodWith readType' c) := by
  rw [readMethodWith, readMethodWith]
  split
  · exact hR.flawed _
  · dsimp only
    split
    · exact hR.bind (hR.number _) fun _ => hR.bind (hR.number _) fun _ => hR.bind (h _) fun _ =>
        hR.bind (hR.times h _ _) fun _ => hR.pure _
    · exact hR.bind (hR.pure _) fun _ => hR.bind (hR.number _) fun _ => hR.bind (h _) fun _ =>
        hR.bind (hR.times h _ _) fun _ => hR.pure _

variable {f : Metadata.Table → Nat → m ν} {g : Metadata.Table → Nat → n ν}
  (hfg : ∀ table rid, R _ (f table rid) (g table rid))
include hfg

theorem reference (c : Cursor) : R _ (Reading.reference f c) (Reading.reference g c) := by
  refine hR.bind (hR.number c) fun (value, c) => ?_
  dsimp only
  split
  · exact hR.flawed _
  · exact hR.bind (hfg _ _) fun _ => hR.pure _

theorem typeWithin (depth : Nat) (c : Cursor) :
    R _ (Reading.typeWithin f depth c) (Reading.typeWithin g depth c) := by
  induction depth generalizing c with
  | zero =>
    unfold Reading.typeWithin
    exact hR.flawed _
  | succ depth ih =>
    have hreference (c : Cursor) := hR.reference hfg c
    have hnumbers (c : Cursor) := hR.counted hR.number c
    unfold Reading.typeWithin
    cases c.rest with
    | nil => exact hR.flawed _
    | cons first rest =>
      dsimp only
      split
      · exact hR.pure _
      -- One case for each element code, in the order of the reader.
      split
      · exact hR.bind (hreference _) fun _ => hR.bind (ih _) fun _ => hR.pure _
      · exact hR.bind (hreference _) fun _ => hR.bind (ih _) fun _ => hR.pure _
      · exact hR.bind (ih _) fun _ => hR.pure _
      · exact hR.bind (ih _) fun _ => hR.pure _
      · exact hR.bind (ih _) fun _ => hR.pure _
      · exact hR.bind (ih _) fun _ => hR.pure _
      · exact hR.bind (hreference _) fun _ => hR.pure _
      · exact hR.bind (hreference _) fun _ => hR.pure _
      · exact hR.bind (hR.number _) fun _ => hR.pure _
      · exact hR.bind (hR.number _) fun _ => hR.pure _
      · exact hR.bind (ih _) fun _ => hR.pure _
      · exact hR.bind (ih _) fun _ => hR.bind (hR.number _) fun _ => hR.bind (hnumbers _) fun _ =>
          hR.bind (hnumbers _) fun _ => hR.pure _
      · exact hR.bind (hreference _) fun _ => hR.bind (hR.counted ih _) fun _ => hR.pure _
      · exact hR.bind (hR.methodWith ih _) fun _ => hR.pure _
      · exact hR.flawed _

/-! ### The readers -/

theorem type (c : Cursor) : R _ (Reading.type f c) (Reading.type g c) := hR.typeWithin hfg _ c

theorem method (c : Cursor) : R _ (Reading.method f c) (Reading.method g c) :=
  hR.methodWith (hR.typeWithin hfg _) c

theorem field (blob : Bytes) : R _ (Reading.field f blob) (Reading.field g blob) := by
  unfold Reading.field
  split
  · exact hR.bind (hR.type hfg _) fun _ => hR.pure _
  · exact hR.flawed _

theorem instantiation (blob : Bytes) : R _ (Reading.instantiation f blob) (Reading.instantiation g blob) := by
  unfold Reading.instantiation
  split
  · exact hR.bind (hR.counted (hR.typeWithin hfg _) _) fun _ => hR.pure _
  · exact hR.flawed _

end Alike

/-! ### Reading without effects -/

section

variable {ε ν : Type} (resolve : Metadata.Table → Nat → Except ε ν)

theorem field_orUnnamed (blob : Bytes) : Reading.field (orUnnamed resolve) blob = readField resolve blob := by
  unfold Reading.field readField
  split
  · change _ = (Reading.type (orUnnamed resolve) _).map _
    cases Reading.type (orUnnamed resolve) (.at _ 1) <;> rfl
  · rfl

theorem instantiation_orUnnamed (blob : Bytes) :
    Reading.instantiation (orUnnamed resolve) blob = readInstantiation resolve blob := by
  unfold Reading.instantiation readInstantiation readTypeWithin
  split
  · generalize readCounted (Reading.typeWithin (orUnnamed resolve) _) _ = result
    cases result <;> rfl
  · rfl

end

end CilProbe.Signature
