/-!
# Sets of code points

A Unicode property is a set of code points, given by the ascending list of the points at which membership changes.
-/

namespace CilProbe.Text

/-- Whether `n` lies in the set whose membership changes at these points. -/
def within : List Nat → Nat → Bool
  | [], _ => false
  | s :: rest, n => s ≤ n && !within rest n

/-- Points below the first change are outside. -/
theorem within_of_lt {s n : Nat} {rest : List Nat} (h : n < s) : within (s :: rest) n = false := by
  simp [within, Nat.not_le.2 h]

theorem within_of_le {s n : Nat} {rest : List Nat} (h : s ≤ n) : within (s :: rest) n = !within rest n := by
  simp [within, h]

/-- A character of ASCII that is seen. -/
def Visible (c : Char) : Prop := 0x20 < c.toNat ∧ c.toNat < 0x7F

instance (c : Char) : Decidable (Visible c) := inferInstanceAs (Decidable (_ ∧ _))

end CilProbe.Text
