import CilProbe.Inspection.TypeNames
import CilProbe.Proofs.Inspection.Memory
import CilProbe.Proofs.Signature.Reading
import Mathlib.Data.Finset.Card
import Mathlib.Order.Interval.Finset.Nat

/-!
# Naming types with a memory

With a memory a type gets the name that it has without one, or the same failure, for any specifications that are being
named (`finds_typeName`).  In particular naming ends: a specification is only entered if it has a row and is not being
named, and so those that are left to be entered (`unentered`) become fewer from one to the next.
-/

namespace CilProbe.Inspection

open Metadata (Table LookupError)
open Assembly (signatureResult maxNesting)

variable {σ α β : Type} {m : Metadata} {pending : List Nat}

/-! ### Type specifications that are left -/

/-- The type specifications that may still be entered. -/
def unentered (m : Metadata) (pending : List Nat) : Finset Nat :=
  Finset.Icc 1 (m.rowCount .typeSpec) \ pending.toFinset

theorem card_unentered_le (m : Metadata) (pending : List Nat) :
    (unentered m pending).card ≤ m.rowCount .typeSpec := by
  have hsub : unentered m pending ⊆ Finset.Icc 1 (m.rowCount .typeSpec) := Finset.sdiff_subset
  have hcard := Finset.card_le_card hsub
  rwa [Nat.card_Icc, Nat.add_sub_cancel] at hcard

theorem card_unentered_cons_lt {rid : Nat} (hrow : 1 ≤ rid ∧ rid ≤ m.rowCount .typeSpec) (hnew : rid ∉ pending) :
    (unentered m (rid :: pending)).card < (unentered m pending).card := by
  have hmem : rid ∈ unentered m pending := by
    rw [unentered, Finset.mem_sdiff, Finset.mem_Icc, List.mem_toFinset]
    exact ⟨hrow, hnew⟩
  have herase : unentered m (rid :: pending) = (unentered m pending).erase rid := by
    ext other
    simp only [unentered, List.toFinset_cons, Finset.mem_sdiff, Finset.mem_insert, Finset.mem_erase, not_or]
    tauto
  rw [herase]
  exact Finset.card_erase_lt_of_mem hmem

/-! ### Signatures -/

theorem signatureResult_bind (x : Except (Signature.ReadError LookupError) α)
    (f : α → Except (Signature.ReadError LookupError) β) :
    signatureResult (x >>= f) = signatureResult x >>= fun a => signatureResult (f a) := by
  cases x <;> rfl

theorem signatureResult_orUnnamed (resolve : Table → Nat → Except LookupError α) (table : Table) (rid : Nat) :
    signatureResult (Signature.orUnnamed resolve table rid) = resolve table rid := by
  rw [Signature.orUnnamed]
  cases resolve table rid <;> rfl

/-- Signatures are read with a memory as they are read without one. -/
theorem alike_finds (m : Metadata) (pending : List Nat) :
    Signature.Alike (m := Inspection σ) (n := Except (Signature.ReadError LookupError))
      fun _ x y => Finds m pending x (signatureResult y) where
  pure a := .pure a
  bind hx hf := by
    rw [signatureResult_bind]
    exact hx.bind fun a _ => hf a
  flawed _ := .throw _

/-! ### Names -/

/-- The specifications that are being named are known. -/
theorem Finds.of_pending {f : Memory σ → Inspection σ α} {y : Except LookupError α}
    (hf : ∀ memory : Memory σ, memory.pending = pending → Finds m pending (f memory) y) :
    Finds m pending (get >>= f) y := by
  intro memory hm hpending
  have hget : (get : Inspection σ (Memory σ)) memory = some (.ok memory, memory) := rfl
  obtain ⟨after, hends, hmethods⟩ := hf memory hpending memory hm hpending
  exact ⟨after, ⟨(run_bind_of_ok hget).trans hends.run, hends.sound, hends.pending⟩, hmethods⟩

variable (h : m.LaidOut)
include h

theorem finds_typeDefName (levels rid : Nat) :
    Finds m pending (typeDefName m levels rid : Inspection σ _) ((Assembly.ofMetadata m).typeDefName levels rid) := by
  induction levels generalizing rid with
  | zero => exact .throw _
  | succ levels ih =>
    rw [typeDefName, Assembly.typeDefName]
    refine (finds_row h .typeDef rid).bind fun row _ => (finds_enclosing h).bind_ok ?_
    cases (Assembly.ofMetadata m).enclosing.lookup rid with
    | none => exact .pure _
    | some outer => exact (ih outer).bind fun _ _ => .pure _

theorem finds_typeRefName (levels rid : Nat) :
    Finds m pending (typeRefName m levels rid : Inspection σ _) ((Assembly.ofMetadata m).typeRefName levels rid) := by
  induction levels generalizing rid with
  | zero => exact .throw _
  | succ levels ih =>
    rw [typeRefName, Assembly.typeRefName]
    refine (finds_row h .typeRef rid).bind fun row _ => (Finds.lift _).bind fun (scope, scopeRid) _ => ?_
    dsimp only
    split
    · exact (ih scopeRid).bind fun _ _ => .pure _
    · exact .pure _

theorem finds_typeNameWithin (specs : Nat) (pending : List Nat) (table : Table) (levels rid : Nat)
    (hspecs : (unentered m pending).card < specs) :
    Finds m pending (typeNameWithin m specs table levels rid : Inspection σ _)
      ((Assembly.ofMetadata m).typeNameWithin specs pending table levels rid) := by
  induction specs generalizing pending table levels rid with
  | zero => omega
  | succ specs ih =>
    unfold typeNameWithin Assembly.typeNameWithin
    split
    · exact .throw _
    cases table with
    | typeDef => exact finds_typeDefName h levels rid
    | typeRef => exact finds_typeRefName h levels rid
    | typeSpec =>
      refine Finds.of_pending fun memory hmemory => ?_
      rw [hmemory]
      dsimp only
      split
      · exact .throw _
      · next hnew =>
        have hrid : rid ∉ pending := by simpa using hnew
        refine (finds_row h .typeSpec rid).bind fun row hrow => .whileNaming hrid ?_
        have hless := card_unentered_cons_lt ((h.exists_row_eq_ok_iff .typeSpec rid).1 ⟨row, hrow⟩) hrid
        have hresolve (table : Table) (inner : Nat) : Finds m (rid :: pending)
            (typeNameWithin m specs table (maxNesting + 1) inner : Inspection σ _)
            (signatureResult (Signature.orUnnamed (fun table inner =>
              (Assembly.ofMetadata m).typeNameWithin specs (rid :: pending) table (maxNesting + 1) inner)
              table inner)) := by
          rw [signatureResult_orUnnamed]
          exact ih (rid :: pending) table (maxNesting + 1) inner (by omega)
        exact ((alike_finds m (rid :: pending)).type hresolve _).bind fun _ _ => .pure _
    | _ => exact .throw _

/-- The name of a type, whichever specifications are being named. -/
theorem finds_typeNameAt (table : Table) (rid : Nat) (depth : Int) :
    Finds m pending (typeNameAt m table rid depth : Inspection σ _)
      ((Assembly.ofMetadata m).typeNameWithin (m.rowCount .typeSpec + 2) pending table
        (maxNesting + 1 - depth).toNat rid) := by
  have hcard := card_unentered_le m pending
  exact finds_typeNameWithin h _ pending table _ rid (by omega)

theorem finds_typeName (table : Table) (rid : Nat) :
    Finds m pending (typeName m table rid : Inspection σ _)
      ((Assembly.ofMetadata m).typeNameWithin (m.rowCount .typeSpec + 2) pending table (maxNesting + 1) rid) :=
  finds_typeNameAt h table rid 0

theorem finds_typeNameIn (tableName : String) (rid depth : Int) :
    Finds m [] (typeNameIn m tableName rid depth : Inspection σ _)
      ((Assembly.ofMetadata m).typeNameIn tableName rid depth) := by
  unfold typeNameIn Assembly.typeNameIn
  cases Assembly.typeTables.find? (·.name == tableName) with
  | none => exact .throw _
  | some table =>
    cases rid with
    | ofNat rid => exact finds_typeNameAt h table rid depth
    | negSucc n =>
      dsimp only
      split
      · exact .throw _
      · exact (finds_rows h table).bind_ok (.throw _)

/-! ### Assemblies of types -/

theorem finds_typeAssemblyWithin (levels : Nat) (table : Table) (rid : Nat) :
    Finds m pending (typeAssemblyWithin m levels table rid : Inspection σ _)
      ((Assembly.ofMetadata m).typeAssemblyWithin levels table rid) := by
  induction levels generalizing table rid with
  | zero => exact .pure _
  | succ levels ih =>
    have hname : Finds m pending (name m : Inspection σ _) _ := finds_name h
    unfold typeAssemblyWithin Assembly.typeAssemblyWithin
    cases table with
    | typeDef => exact hname
    | typeRef =>
      refine (finds_row h .typeRef rid).bind fun row _ => (Finds.lift _).bind fun (scope, scopeRid) _ => ?_
      dsimp only
      split
      · exact (finds_row h .assemblyRef scopeRid).bind fun _ _ => .pure _
      split
      · exact ih .typeRef scopeRid
      · exact hname
    | typeSpec =>
      refine (finds_row h .typeSpec rid).bind fun row _ => ?_
      rw [Assembly.metadata_ofMetadata]
      generalize m.blob (row.column "Signature") = blob
      by_cases hblob : ∃ first rest, blob = 0x15 :: first :: rest
      · obtain ⟨first, rest, rfl⟩ := hblob
        simp only
        cases Compressed.read? rest with
        | none => exact .pure _
        | some entry =>
          dsimp only
          cases Metadata.CodedIndex.typeDefOrRef.decode? entry.1 with
          | none => exact .throw _
          | some target => exact ih target.1 target.2
      · have hother : ∀ first rest, blob = 0x15 :: first :: rest → False := fun first rest h => hblob ⟨first, rest, h⟩
        simp only
        exact .pure _
    | _ => exact .pure _

theorem finds_typeAssemblyIn (tableName : String) (rid depth : Int) :
    Finds m pending (typeAssemblyIn m tableName rid depth : Inspection σ _)
      ((Assembly.ofMetadata m).typeAssemblyIn tableName rid depth) := by
  unfold typeAssemblyIn Assembly.typeAssemblyIn
  cases Assembly.typeTables.find? (·.name == tableName) with
  | none => exact .pure _
  | some table =>
    cases rid with
    | ofNat rid => exact finds_typeAssemblyWithin h _ table rid
    | negSucc n =>
      dsimp only
      split
      · exact .pure _
      split
      · exact finds_name h
      · exact (finds_rows h table).bind_ok (.throw _)

end CilProbe.Inspection
