/-!
# Positions

Positions in a list count from zero; a position below zero counts from the end, so that `-1` is the last one.

* In range both ways of counting lead to the same element: `at?_sub_length`.
-/

namespace CilProbe.Position

variable {α : Type}

/-- How many elements stand in front of a position. One that lies outside is moved to the end that it lies beyond. -/
def clamp (length : Nat) : Int → Nat
  | .ofNat n => min n length
  | .negSucc n => length - (n + 1)

/-- The elements from a position on. None if the position lies before the first one. Behind the last element a position
below zero goes on with the first. -/
def from? (xs : List α) : Int → Option (List α)
  | .ofNat n => some (xs.drop n)
  | .negSucc n => if n < xs.length then some (xs.drop (xs.length - (n + 1)) ++ xs) else none

/-- The element at a position. -/
def at? (xs : List α) : Int → Option α
  | .ofNat n => xs[n]?
  | .negSucc n => if n < xs.length then xs[xs.length - (n + 1)]? else none

/-- The elements from one position up to another. -/
def between (xs : List α) (start stop : Int) : List α :=
  let first := clamp xs.length start
  (xs.drop first).take (clamp xs.length stop - first)

theorem clamp_le (length : Nat) (n : Int) : clamp length n ≤ length := by
  cases n with
  | ofNat n => exact Nat.min_le_right ..
  | negSucc n => exact Nat.sub_le ..

@[simp] theorem at?_nil (n : Int) : at? ([] : List α) n = none := by
  cases n <;> simp [at?]

theorem at?_sub_length (xs : List α) {n : Nat} (h : n < xs.length) : at? xs ((n : Int) - xs.length) = xs[n]? := by
  obtain ⟨k, hk⟩ : ∃ k, xs.length = n + (k + 1) := ⟨xs.length - n - 1, by omega⟩
  have e : (n : Int) - xs.length = .negSucc k := by omega
  have hk' : k < xs.length := by omega
  have hn : xs.length - (k + 1) = n := by omega
  simp only [e, at?, if_pos hk', hn]

end CilProbe.Position
