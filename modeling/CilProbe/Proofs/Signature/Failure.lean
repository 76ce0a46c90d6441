import CilProbe.Proofs.Failure
import CilProbe.Proofs.Signature.Reading

/-!
# How signatures fail

A signature that cannot be read has a flaw, or it refers to a type that has no name; then the reason is the one for
which that type has none.  So readers of signatures fail with nothing that the naming of types does not fail with.
-/

namespace CilProbe.Signature

variable {ε ν : Type} {P : ε → Prop}

/-- A flaw, or a type without a name for a reason with the property `P`. -/
def ReadError.Of (P : ε → Prop) : ReadError ε → Prop
  | .flaw _ => True
  | .unnamed e => P e

/-- To fail only so is kept when readers are put together; there is only one kind of them. -/
private theorem alike_fails (P : ε → Prop) :
    Alike (m := Except (ReadError ε)) (n := Except (ReadError ε)) fun _ x _ => OnlyFails (ReadError.Of P) x where
  pure a := .pure a
  bind hx hf := hx.bind hf
  flawed _ := .error trivial

variable {resolve : Metadata.Table → Nat → Except ε ν} (hresolve : ∀ table rid, OnlyFails P (resolve table rid))
include hresolve

private theorem orUnnamed_fails (table : Metadata.Table) (rid : Nat) :
    OnlyFails (ReadError.Of P) (orUnnamed resolve table rid) :=
  (hresolve table rid).mapError fun _ he => he

/-! ### The readers -/

theorem readType_fails (c : Cursor) : OnlyFails (ReadError.Of P) (readType resolve c) :=
  (alike_fails P).type (g := orUnnamed resolve) (orUnnamed_fails hresolve) c

theorem readMethod_fails (c : Cursor) : OnlyFails (ReadError.Of P) (readMethod resolve c) :=
  (alike_fails P).method (g := orUnnamed resolve) (orUnnamed_fails hresolve) c

end CilProbe.Signature
