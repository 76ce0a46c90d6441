import CilProbe.Proofs.Failure
import CilProbe.Proofs.Signature.Writer
import CilProbe.Signature.Reader
import Mathlib.Data.List.Forall2

/-!
# The rows of a signature

A signature refers to types by rows, and a reader puts names in their place.  What it reads then is what stands in the
signature with these names: if a type is read with names, then it is read with rows at the same place, and naming the
rows gives the same type (`readType_rows`, `readMethod_rows`).

So the structure of a type can be spoken of whatever the names look like.  The readers are the same on both sides, and
they are compared step by step (`Mirrors`).
-/

namespace CilProbe.Signature

variable {ε δ α α' β β' : Type}

/-! ### Steps on both sides -/

/-- If there is a result on the left, then there is one on the right that goes with it. -/
def Mirrors (V : α → α' → Prop) (x : Except ε α) (y : Except δ α') : Prop := ∀ a, x = .ok a → ∃ b, y = .ok b ∧ V a b

namespace Mirrors

variable {V : α → α' → Prop} {W : β → β' → Prop}

theorem pure {a : α} {b : α'} (h : V a b) : Mirrors V (Pure.pure a : Except ε α) (Pure.pure b : Except δ α') := by
  rintro _ ⟨⟩
  exact ⟨b, rfl, h⟩

theorem error (e : ε) (y : Except δ α') : Mirrors V (.error e) y := nofun

theorem bind {x : Except ε α} {y : Except δ α'} {f : α → Except ε β} {g : α' → Except δ β'} (h : Mirrors V x y)
    (hnext : ∀ a b, V a b → Mirrors W (f a) (g b)) : Mirrors W (x >>= f) (y >>= g) := by
  intro c hc
  obtain ⟨a, ha, hc⟩ := exists_of_bind_eq_ok hc
  obtain ⟨b, rfl, hab⟩ := h a ha
  exact hnext a b hab c hc

end Mirrors

/-- Results that go together, with the same place behind them. -/
def Placed (V : α → α' → Prop) (p : α × Cursor) (q : α' × Cursor) : Prop := V p.1 q.1 ∧ p.2 = q.2

section

variable {V : α → α' → Prop} {W : β → β' → Prop} {x : Except ε (α × Cursor)} {y : Except δ (α' × Cursor)}

theorem Mirrors.step {f : α × Cursor → Except ε β} {g : α' × Cursor → Except δ β'} (h : Mirrors (Placed V) x y)
    (hnext : ∀ a b c, V a b → Mirrors W (f (a, c)) (g (b, c))) : Mirrors W (x >>= f) (y >>= g) := by
  refine h.bind ?_
  rintro ⟨a, c⟩ ⟨b, _⟩ ⟨hab, rfl⟩
  exact hnext a b c hab

theorem Mirrors.placed {a : α} {b : α'} (h : V a b) (c : Cursor) :
    Mirrors (Placed V) (Pure.pure (a, c) : Except ε _) (Pure.pure (b, c) : Except δ _) := .pure ⟨h, rfl⟩

theorem mirrors_number (c : Cursor) : Mirrors (Placed Eq) (readNumber c : Except (ReadError ε) _)
    (readNumber c : Except (ReadError δ) _) := by
  rw [readNumber, readNumber]
  split
  · exact .placed rfl _
  · exact .error _ _

theorem mirrors_times {step : Step ε α} {step' : Step δ α'} (h : ∀ c, Mirrors (Placed V) (step c) (step' c))
    (count : Nat) (c : Cursor) :
    Mirrors (Placed (List.Forall₂ V)) (readTimes step count c) (readTimes step' count c) := by
  induction count generalizing c with
  | zero => exact .placed .nil c
  | succ count ih =>
    exact (h c).step fun a b c hab => (ih c).step fun as bs c hs => .placed (.cons hab hs) c

theorem mirrors_counted {step : Step ε α} {step' : Step δ α'} (h : ∀ c, Mirrors (Placed V) (step c) (step' c))
    (c : Cursor) : Mirrors (Placed (List.Forall₂ V)) (readCounted step c) (readCounted step' c) :=
  (mirrors_number c).step fun count _ c hcount => hcount ▸ mirrors_times h count c

theorem mirrors_numbers (c : Cursor) :
    Mirrors (Placed Eq) (readCounted readNumber c : Except (ReadError ε) _)
      (readCounted readNumber c : Except (ReadError δ) _) := by
  have h := mirrors_counted (mirrors_number (ε := ε) (δ := δ)) c
  rwa [List.forall₂_eq_eq_eq] at h

end

/-! ### Types on both sides -/

/-- The reference itself, as a row. -/
def itself (table : Metadata.Table) (rid : Nat) : Except ε TypeRow := .ok ⟨table, rid⟩

variable {resolve : Metadata.Table → Nat → Except ε String}

/-- The name of a row; empty if it has none. -/
def nameOf (resolve : Metadata.Table → Nat → Except ε String) (row : TypeRow) : String :=
  (resolve row.table row.rid).toOption.getD ""

theorem nameOf_eq {row : TypeRow} {name : String} (h : resolve row.table row.rid = .ok name) :
    nameOf resolve row = name := by
  rw [nameOf, h]
  rfl

/-- All rows have names. -/
def AllNamed (resolve : Metadata.Table → Nat → Except ε String) (rows : List TypeRow) : Prop :=
  ∀ row ∈ rows, resolve row.table row.rid = .ok (nameOf resolve row)

/-- The type on the left is the one on the right with the names of the rows. -/
structure Named (resolve : Metadata.Table → Nat → Except ε String) (t : TypeSig String) (t₀ : TypeSig TypeRow) :
    Prop where
  map : t₀.map (nameOf resolve) = t
  allNamed : AllNamed resolve t₀.references

theorem Named.forall₂ {ts : List (TypeSig String)} {ts₀ : List (TypeSig TypeRow)}
    (h : List.Forall₂ (Named resolve) ts ts₀) :
    TypeSig.mapAll (nameOf resolve) ts₀ = ts ∧ AllNamed resolve (TypeSig.allReferences ts₀) := by
  induction h with
  | nil => exact ⟨rfl, nofun⟩
  | cons ht hts ih =>
    rw [TypeSig.mapAll, TypeSig.allReferences, ht.map, ih.1]
    exact ⟨rfl, List.forall_mem_append.2 ⟨ht.allNamed, ih.2⟩⟩

theorem Named.named (isValueType : Bool) {name : String} {row : TypeRow}
    (h : resolve row.table row.rid = .ok name) :
    Named resolve (.named isValueType name) (.named isValueType row) := by
  obtain rfl := nameOf_eq h
  exact ⟨rfl, fun _ hmem => List.mem_singleton.1 hmem ▸ h⟩

theorem Named.modified (isRequired : Bool) {name : String} {row : TypeRow} {t : TypeSig String} {t₀ : TypeSig TypeRow}
    (h : resolve row.table row.rid = .ok name) (ht : Named resolve t t₀) :
    Named resolve (.modified isRequired name t) (.modified isRequired row t₀) := by
  obtain rfl := nameOf_eq h
  exact ⟨congrArg (TypeSig.modified isRequired _) ht.map, List.forall_mem_cons.2 ⟨h, ht.allNamed⟩⟩

theorem Named.generic (isValueType : Bool) {name : String} {row : TypeRow} {ts : List (TypeSig String)}
    {ts₀ : List (TypeSig TypeRow)} (h : resolve row.table row.rid = .ok name)
    (hs : List.Forall₂ (Named resolve) ts ts₀) :
    Named resolve (.generic isValueType name ts) (.generic isValueType row ts₀) := by
  obtain rfl := nameOf_eq h
  obtain ⟨hmap, hnamed⟩ := Named.forall₂ hs
  exact ⟨congrArg (TypeSig.generic isValueType _) hmap, List.forall_mem_cons.2 ⟨h, hnamed⟩⟩

structure NamedMethod (resolve : Metadata.Table → Nat → Except ε String) (sig : MethodSig String)
    (sig₀ : MethodSig TypeRow) : Prop where
  map : sig₀.map (nameOf resolve) = sig
  allNamed : AllNamed resolve sig₀.references

theorem Named.function {sig : MethodSig String} {sig₀ : MethodSig TypeRow} (h : NamedMethod resolve sig sig₀) :
    Named resolve (.function sig.convention sig.genericParameters sig.result sig.parameters)
      (.function sig₀.convention sig₀.genericParameters sig₀.result sig₀.parameters) := by
  obtain ⟨rfl, hnamed⟩ := h
  exact ⟨rfl, hnamed⟩

/-- The result and the parameters of a method, read and put together. -/
theorem mirrors_parts {step : Step ε (TypeSig String)} {step' : Step δ (TypeSig TypeRow)}
    (h : ∀ c, Mirrors (Placed (Named resolve)) (step c) (step' c)) (convention genericParameters count : Nat)
    (c : Cursor) :
    Mirrors (Placed (NamedMethod resolve))
      (do
        let (result, c) ← step c
        let (parameters, c) ← readTimes step count c
        return (⟨convention, genericParameters, result, parameters⟩, c))
      (do
        let (result, c) ← step' c
        let (parameters, c) ← readTimes step' count c
        return (⟨convention, genericParameters, result, parameters⟩, c)) := by
  refine (h c).step fun result result₀ c hresult => ?_
  refine (mirrors_times h count c).step fun parameters parameters₀ c hparameters => .placed ?_ c
  obtain ⟨hmap, hnamed⟩ := Named.forall₂ hparameters
  refine ⟨?_, List.forall_mem_append.2 ⟨hresult.allNamed, hnamed⟩⟩
  rw [MethodSig.map, hresult.map, hmap]

theorem mirrors_methodWith {step : Step ε (TypeSig String)} {step' : Step δ (TypeSig TypeRow)}
    (h : ∀ c, Mirrors (Placed (Named resolve)) (step c) (step' c)) (c : Cursor) :
    Mirrors (Placed (NamedMethod resolve)) (readMethodWith step c) (readMethodWith step' c) := by
  rw [readMethodWith, readMethodWith]
  split
  · exact .error _ _
  · dsimp only
    split
    · exact (mirrors_number _).step fun number _ c hnumber => hnumber ▸
        (mirrors_number c).step fun count _ c hcount => hcount ▸ mirrors_parts h _ number count c
    · exact (Mirrors.placed (V := Eq) rfl _).step fun number _ c hnumber => hnumber ▸
        (mirrors_number c).step fun count _ c hcount => hcount ▸ mirrors_parts h _ number count c

theorem mirrors_reference (c : Cursor) :
    Mirrors (Placed fun name row => resolve row.table row.rid = .ok name)
      (Reading.reference (orUnnamed resolve) c)
      (Reading.reference (orUnnamed itself) c : Except (ReadError δ) (TypeRow × Cursor)) := by
  refine (mirrors_number c).step fun value _ c hvalue => ?_
  subst hvalue
  dsimp only
  cases Metadata.CodedIndex.typeDefOrRef.decode? value with
  | none => exact .error _ _
  | some target =>
    dsimp only
    cases hname : resolve target.1 target.2 with
    | error e =>
      rw [orUnnamed, hname]
      exact .error _ _
    | ok name =>
      rw [orUnnamed, hname]
      exact .pure ⟨hname, rfl⟩

theorem mirrors_typeWithin (depth : Nat) (c : Cursor) :
    Mirrors (Placed (Named resolve)) (readTypeWithin resolve depth c)
      (readTypeWithin itself depth c : Except (ReadError δ) _) := by
  rw [readTypeWithin, readTypeWithin]
  induction depth generalizing c with
  | zero =>
    unfold Reading.typeWithin
    exact .error _ _
  | succ depth ih =>
    unfold Reading.typeWithin
    cases c.rest with
    | nil => exact .error _ _
    | cons first rest =>
      dsimp only
      split
      · exact .placed ⟨rfl, nofun⟩ _
      -- One case for each element code, in the order of the reader.
      split
      · exact (mirrors_reference _).step fun _ _ c hname => (ih c).step fun _ _ c h =>
          .placed (.modified _ hname h) c
      · exact (mirrors_reference _).step fun _ _ c hname => (ih c).step fun _ _ c h =>
          .placed (.modified _ hname h) c
      · exact (ih _).step fun _ _ c h => .placed ⟨congrArg TypeSig.pinned h.map, h.allNamed⟩ c
      · exact (ih _).step fun _ _ c h => .placed ⟨congrArg TypeSig.sentinel h.map, h.allNamed⟩ c
      · exact (ih _).step fun _ _ c h => .placed ⟨congrArg TypeSig.pointer h.map, h.allNamed⟩ c
      · exact (ih _).step fun _ _ c h => .placed ⟨congrArg TypeSig.byRef h.map, h.allNamed⟩ c
      · exact (mirrors_reference _).step fun _ _ c hname => .placed (.named _ hname) c
      · exact (mirrors_reference _).step fun _ _ c hname => .placed (.named _ hname) c
      · exact (mirrors_number _).step fun _ _ c h => h ▸ .placed ⟨rfl, nofun⟩ c
      · exact (mirrors_number _).step fun _ _ c h => h ▸ .placed ⟨rfl, nofun⟩ c
      · exact (ih _).step fun _ _ c h => .placed ⟨congrArg TypeSig.vector h.map, h.allNamed⟩ c
      · refine (ih _).step fun _ _ c h => (mirrors_number c).step fun rank _ c hrank => ?_
        refine (mirrors_numbers c).step fun sizes _ c hsizes => (mirrors_numbers c).step fun bounds _ c hbounds => ?_
        subst hrank hsizes hbounds
        exact .placed ⟨congrArg (TypeSig.array · rank sizes bounds) h.map, h.allNamed⟩ c
      · exact (mirrors_reference _).step fun _ _ c hname => (mirrors_counted ih c).step fun _ _ c hs =>
          .placed (.generic _ hname hs) c
      · exact (mirrors_methodWith ih _).step fun _ _ c h => .placed (.function h) c
      · exact .error _ _

theorem readType_rows {c c' : Cursor} {t : TypeSig String} (h : readType resolve c = .ok (t, c')) :
    ∃ t₀, (readType itself c : Except (ReadError δ) _) = .ok (t₀, c') ∧ Named resolve t t₀ := by
  obtain ⟨⟨t₀, _⟩, hread, hnamed, rfl⟩ := mirrors_typeWithin (δ := δ) _ c _ h
  exact ⟨t₀, hread, hnamed⟩

theorem readMethod_rows {c c' : Cursor} {sig : MethodSig String} (h : readMethod resolve c = .ok (sig, c')) :
    ∃ sig₀, (readMethod itself c : Except (ReadError δ) _) = .ok (sig₀, c') ∧ NamedMethod resolve sig sig₀ := by
  obtain ⟨⟨sig₀, _⟩, hread, hnamed, rfl⟩ := mirrors_methodWith (mirrors_typeWithin (δ := δ) _) c _ h
  exact ⟨sig₀, hread, hnamed⟩

end CilProbe.Signature
