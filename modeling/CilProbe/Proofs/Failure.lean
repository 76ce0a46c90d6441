import Mathlib.Data.List.Basic

/-!
# How computations fail

`OnlyFails P x`: if `x` fails, then with an error that has the property `P`.  It is carried along the ways in which
computations are put together, so that what a reader can fail with follows from what its parts can fail with.
`Yields P x` says the same of the result, if there is one.
-/

namespace CilProbe

variable {ε ε' α β : Type}

/-- What a computation goes on with if it succeeds as a whole. -/
theorem exists_of_bind_eq_ok {x : Except ε α} {f : α → Except ε β} {b : β} (h : x >>= f = .ok b) :
    ∃ a, x = .ok a ∧ f a = .ok b := by
  cases x with
  | error e => contradiction
  | ok a => exact ⟨a, rfl, h⟩

theorem eq_ok_of_toOption {x : Except ε α} {a : α} (h : x.toOption = some a) : x = .ok a := by
  cases x with
  | error e => contradiction
  | ok b => rw [Option.some.inj h]

/-- If the result passes a check, there is one. -/
theorem exists_of_toOption_any {x : Except ε α} {p : α → Bool} (h : x.toOption.any p = true) :
    ∃ a, x = .ok a ∧ p a := by
  cases x with
  | error e => contradiction
  | ok a => exact ⟨a, rfl, h⟩

/-- What succeeds for each element succeeds for all. -/
theorem mapM_eq_pure {μ : Type → Type} [Monad μ] [LawfulMonad μ] {f : α → μ β} {g : α → β} {l : List α}
    (h : ∀ a ∈ l, f a = pure (g a)) : l.mapM f = pure (l.map g) := by
  induction l with
  | nil => rw [List.mapM_nil, List.map_nil]
  | cons a l ih =>
    rw [List.mapM_cons, h a (by simp), ih fun a ha => h a (by simp [ha])]
    simp

theorem exists_mapM_eq_ok_iff {f : α → Except ε β} {l : List α} :
    (∃ bs, l.mapM f = .ok bs) ↔ ∀ a ∈ l, ∃ b, f a = .ok b := by
  induction l with
  | nil => simp [List.mapM_nil, pure, Except.pure]
  | cons a l ih =>
    rw [List.forall_mem_cons, ← ih, List.mapM_cons]
    constructor
    · rintro ⟨bs, h⟩
      obtain ⟨b, hb, h⟩ := exists_of_bind_eq_ok h
      obtain ⟨bs', hbs', -⟩ := exists_of_bind_eq_ok h
      exact ⟨⟨b, hb⟩, bs', hbs'⟩
    · rintro ⟨⟨b, hb⟩, bs, hbs⟩
      exact ⟨b :: bs, by rw [hb, hbs]; rfl⟩

/-- What succeeds for the whole list succeeds for each element, at its place. -/
theorem map_ok_of_mapM_eq_ok {f : α → Except ε β} {l : List α} {bs : List β} (h : l.mapM f = .ok bs) :
    bs.map .ok = l.map f := by
  induction l generalizing bs with
  | nil =>
    cases h
    rfl
  | cons a l ih =>
    rw [List.mapM_cons] at h
    obtain ⟨b, hb, h⟩ := exists_of_bind_eq_ok h
    obtain ⟨bs', hbs', h⟩ := exists_of_bind_eq_ok h
    cases h
    rw [List.map_cons, List.map_cons, hb, ih hbs']

/-- A list fails like the first of its elements that does. -/
theorem mapM_eq_error_iff {f : α → Except ε β} {l : List α} {e : ε} :
    l.mapM f = .error e ↔ ∃ (k : Nat) (a : α), l[k]? = some a ∧ f a = .error e ∧
      ∀ j < k, ∀ b, l[j]? = some b → ∃ c, f b = .ok c := by
  induction l with
  | nil => simp [List.mapM_nil, pure, Except.pure]
  | cons a l ih =>
    rw [List.mapM_cons]
    cases ha : f a with
    | error e' =>
      constructor
      · intro h
        cases h
        exact ⟨0, a, rfl, ha, by simp⟩
      · rintro ⟨k, b, hb, he, hbefore⟩
        cases k with
        | zero =>
          cases hb
          cases ha.symm.trans he
          rfl
        | succ k =>
          obtain ⟨c, hc⟩ := hbefore 0 (by omega) a rfl
          rw [ha] at hc
          contradiction
    | ok c =>
      have hrest : (do return c :: (← l.mapM f) : Except ε (List β)) = .error e ↔ l.mapM f = .error e := by
        cases l.mapM f with
        | error e' => exact Iff.rfl
        | ok bs => exact ⟨nofun, nofun⟩
      refine (hrest.trans ih).trans ?_
      constructor
      · rintro ⟨k, b, hb, he, hbefore⟩
        refine ⟨k + 1, b, hb, he, ?_⟩
        intro j hj d hd
        cases j with
        | zero =>
          cases hd
          exact ⟨c, ha⟩
        | succ j => exact hbefore j (by omega) d hd
      · rintro ⟨k, b, hb, he, hbefore⟩
        cases k with
        | zero =>
          cases hb
          rw [ha] at he
          contradiction
        | succ k => exact ⟨k, b, hb, he, fun j hj d hd => hbefore (j + 1) (by omega) d hd⟩

def OnlyFails (P : ε → Prop) (x : Except ε α) : Prop := ∀ e, x = .error e → P e

namespace OnlyFails

variable {P : ε → Prop}

theorem ok (a : α) : OnlyFails P (.ok a : Except ε α) := nofun

theorem pure (a : α) : OnlyFails P (Pure.pure a : Except ε α) := nofun

theorem error {e : ε} (h : P e) : OnlyFails P (.error e : Except ε α) := by
  rintro _ ⟨⟩
  exact h

theorem mono {Q : ε → Prop} {x : Except ε α} (hx : OnlyFails P x) (h : ∀ e, P e → Q e) : OnlyFails Q x :=
  fun e he => h e (hx e he)

theorem bind {x : Except ε α} {f : α → Except ε β} (hx : OnlyFails P x) (hf : ∀ a, OnlyFails P (f a)) :
    OnlyFails P (x >>= f) := by
  cases x with
  | error e => exact error (hx e rfl)
  | ok a => exact hf a

theorem map {x : Except ε α} (hx : OnlyFails P x) (f : α → β) : OnlyFails P (x.map f) := by
  cases x with
  | error e => exact error (hx e rfl)
  | ok a => exact ok (f a)

theorem mapM {f : α → Except ε β} (hf : ∀ a, OnlyFails P (f a)) (l : List α) : OnlyFails P (l.mapM f) := by
  induction l with
  | nil => exact pure []
  | cons a l ih =>
    rw [List.mapM_cons]
    exact (hf a).bind fun b => ih.bind fun bs => pure (b :: bs)

theorem mapError {Q : ε' → Prop} {x : Except ε α} {f : ε → ε'} (hx : OnlyFails P x) (hf : ∀ e, P e → Q (f e)) :
    OnlyFails Q (x.mapError f) := by
  cases x with
  | error e => exact error (hf e (hx e rfl))
  | ok a => exact ok a

end OnlyFails

/-- If there is a result, it has the property `P`. -/
def Yields (P : α → Prop) (x : Except ε α) : Prop := ∀ a, x = .ok a → P a

namespace Yields

variable {P : α → Prop} {Q : β → Prop}

theorem ok {a : α} (h : P a) : Yields P (.ok a : Except ε α) := by
  rintro _ ⟨⟩
  exact h

theorem pure {a : α} (h : P a) : Yields P (Pure.pure a : Except ε α) := ok h

theorem error (e : ε) : Yields P (.error e : Except ε α) := nofun

theorem trivial (x : Except ε α) : Yields (fun _ => True) x := fun _ _ => .intro

theorem bind {x : Except ε α} {f : α → Except ε β} (hx : Yields P x) (hf : ∀ a, P a → Yields Q (f a)) :
    Yields Q (x >>= f) := by
  intro b hb
  obtain ⟨a, ha, hb⟩ := exists_of_bind_eq_ok hb
  exact hf a (hx a ha) b hb

theorem mapError {x : Except ε α} (hx : Yields P x) (f : ε → ε') : Yields P (x.mapError f) := by
  cases x with
  | error e => exact error (f e)
  | ok a => exact ok (hx a rfl)

end Yields

end CilProbe
