import Mathlib.Data.List.Induction
import Mathlib.Data.List.Nodup
import Mathlib.Data.List.TakeWhile

/-!
# Lists

What several kinds of lists have in common.

* If of equal members only the first stays, each member is left once, in the order in which they first occur
  (`firstOccurrences_eraseDups`).
* What stands behind the last separator is found in the last part of a list, if there is a separator in it
  (`reverse_takeWhile_append_of_mem`), and else goes on in front of it (`reverse_takeWhile_append_of_notMem`).
-/

namespace CilProbe

variable {α : Type} [BEq α] [LawfulBEq α]

/-! ### Members without repetition -/

/-- One more element is kept if it is new. -/
theorem eraseDups_concat (as : List α) (a : α) :
    (as ++ [a]).eraseDups = if as.contains a then as.eraseDups else as.eraseDups ++ [a] := by
  rw [List.eraseDups_append, List.removeAll, List.filter_singleton, List.elem_eq_contains]
  cases as.contains a <;> simp [List.eraseDups_cons]

/-- The distinct members of a list in the order in which they first occur there. -/
structure FirstOccurrences (distinct as : List α) : Prop where
  nodup : distinct.Nodup
  mem_iff : ∀ a, a ∈ distinct ↔ a ∈ as
  ordered : distinct.Pairwise fun a b => as.idxOf a < as.idxOf b

/-- By induction from the end: what is added last stands behind all that occurred before. -/
theorem firstOccurrences_eraseDups (as : List α) : FirstOccurrences as.eraseDups as := by
  induction as using List.reverseRecOn with
  | nil => exact ⟨List.nodup_nil, fun _ => Iff.rfl, List.Pairwise.nil⟩
  | append_singleton as a ih =>
    have hordered : as.eraseDups.Pairwise fun b c => (as ++ [a]).idxOf b < (as ++ [a]).idxOf c := by
      refine ih.ordered.imp_of_mem fun {b c} hb hc hlt => ?_
      rwa [List.idxOf_append_of_mem ((ih.mem_iff b).1 hb), List.idxOf_append_of_mem ((ih.mem_iff c).1 hc)]
    refine ⟨?_, fun b => List.mem_eraseDups, ?_⟩
    · rw [eraseDups_concat]
      split
      · exact ih.nodup
      · next hnew =>
        rw [← List.concat_eq_append]
        exact ih.nodup.concat fun ha => hnew (List.contains_iff_mem.2 ((ih.mem_iff a).1 ha))
    · rw [eraseDups_concat]
      split
      · exact hordered
      · next hnew =>
        refine List.pairwise_append.2 ⟨hordered, List.pairwise_singleton _ _, fun b hb c hc => ?_⟩
        rw [List.mem_singleton.1 hc, List.idxOf_append_of_mem ((ih.mem_iff b).1 hb),
          List.idxOf_append_of_notMem (mt List.contains_iff_mem.2 hnew)]
        exact Nat.lt_add_right _ (List.idxOf_lt_length_of_mem ((ih.mem_iff b).1 hb))

/-! ### Separators -/

variable {a : α} {xs ys : List α}

theorem bne_of_mem_reverse (h : a ∉ xs) : ∀ b ∈ xs.reverse, (b != a) = true := by
  intro b hb
  rw [List.mem_reverse] at hb
  exact bne_iff_ne.2 (ne_of_mem_of_not_mem hb h)

theorem reverse_takeWhile_of_notMem (h : a ∉ xs) : (xs.reverse.takeWhile (· != a)).reverse = xs := by
  rw [List.takeWhile_eq_self_iff.2 (bne_of_mem_reverse h), List.reverse_reverse]

theorem reverse_takeWhile_append_of_notMem (h : a ∉ ys) (xs : List α) :
    ((xs ++ ys).reverse.takeWhile (· != a)).reverse = (xs.reverse.takeWhile (· != a)).reverse ++ ys := by
  rw [List.reverse_append, List.takeWhile_append_of_pos (bne_of_mem_reverse h), List.reverse_append,
    List.reverse_reverse]

theorem reverse_takeWhile_append_of_mem (h : a ∈ ys) (xs : List α) :
    ((xs ++ ys).reverse.takeWhile (· != a)).reverse = (ys.reverse.takeWhile (· != a)).reverse := by
  have hstops : ¬(ys.reverse.takeWhile (· != a)).length = ys.reverse.length := by
    intro hlength
    have hall := List.takeWhile_eq_self_iff.1 ((List.takeWhile_prefix _).eq_of_length hlength)
    simpa using hall a (List.mem_reverse.2 h)
  rw [List.reverse_append, List.takeWhile_append, if_neg hstops]

end CilProbe
