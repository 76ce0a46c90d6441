import CilProbe.Inspection.Memory
import CilProbe.Proofs.Failure
import CilProbe.Proofs.Metadata.Acceptance

/-!
# What a memory holds

What is remembered of whole tables is what the tables say (`Memory.Sound`).  An inspection ends in a memory that is
sound again, in which the same type specifications are being named as before (`Ends`).

As long as an inspection asks for no methods, what it finds depends only on the specifications that are being named
(`Finds`).  Inspections that find something are put together with `Finds.bind`; what is derived from whole tables is
found in every sound memory: `finds_rows`, `finds_row`, `finds_name`, `finds_genericOwners` and the like.
-/

namespace CilProbe

open Metadata (Table Row LookupError CodedIndex)

variable {σ α β : Type} {m : Metadata}

/-- What holds of a new entry and of all that were found before holds of all that are found. -/
theorem forall_lookup_cons {κ : Type} [BEq κ] [LawfulBEq κ] {P : κ → α → Prop} {key : κ} {a : α} {l : List (κ × α)}
    (ha : P key a) (hl : ∀ k b, l.lookup k = some b → P k b) : ∀ k b, ((key, a) :: l).lookup k = some b → P k b := by
  intro k b hb
  rw [List.lookup_cons] at hb
  split at hb
  · next heq =>
    cases hb
    rw [eq_of_beq heq]
    exact ha
  · exact hl k b hb

@[simp] theorem Assembly.metadata_ofMetadata (m : Metadata) : (Assembly.ofMetadata m).metadata = m := rfl

/-- Remembered tables are as in the metadata. -/
def Memory.TablesSound (m : Metadata) (tables : List (Table × List Row)) : Prop :=
  ∀ table rows, tables.lookup table = some rows → rows = m.rows table

/-- What is remembered of whole tables is as in the metadata. -/
structure Memory.Sound (m : Metadata) (memory : Memory σ) : Prop where
  tables : TablesSound m memory.tables
  methodOwners : ∀ owners, memory.methodOwners? = some owners → owners = (Assembly.ofMetadata m).methodOwners
  fieldOwners : ∀ owners, memory.fieldOwners? = some owners → owners = (Assembly.ofMetadata m).fieldOwners
  enclosing : ∀ entries, memory.enclosing? = some entries → entries = (Assembly.ofMetadata m).enclosing
  genericOwners : ∀ owners, memory.genericOwners? = some owners → owners = (Assembly.ofMetadata m).genericOwners

/-- An empty memory is sound. -/
theorem Memory.Sound.empty (source : σ) : Memory.Sound m { source } where
  tables _ _ h := by contradiction
  methodOwners _ h := by contradiction
  fieldOwners _ h := by contradiction
  enclosing _ h := by contradiction
  genericOwners _ h := by contradiction

theorem Memory.Sound.withTables {memory : Memory σ} (h : memory.Sound m) {tables : List (Table × List Row)}
    (ht : TablesSound m tables) : Memory.Sound m { memory with tables } where
  tables := ht
  methodOwners := h.methodOwners
  fieldOwners := h.fieldOwners
  enclosing := h.enclosing
  genericOwners := h.genericOwners

theorem Memory.Sound.withPending {memory : Memory σ} (h : memory.Sound m) (pending : List Nat) :
    Memory.Sound m { memory with pending } := { h with }

theorem Memory.Sound.withMethods {memory : Memory σ} (h : memory.Sound m) (methods : List (Nat × Method)) :
    Memory.Sound m { memory with methods } := { h with }

theorem Memory.Sound.withSource {memory : Memory σ} (h : memory.Sound m) (source : σ) :
    Memory.Sound m { memory with source } := { h with }

namespace Inspection

/-! ### Runs -/

section

variable {x : Inspection σ α} {f : α → Inspection σ β} {memory after : Memory σ}

theorem run_bind_of_ok {a : α} (h : x memory = some (.ok a, after)) : (x >>= f) memory = f a after := by
  simp only [bind, ExceptT.bind, ExceptT.mk, StateT.bind, h, Option.bind_some, ExceptT.bindCont]

theorem run_bind_of_error {e : LookupError} (h : x memory = some (.error e, after)) :
    (x >>= f) memory = some (.error e, after) := by
  simp only [bind, ExceptT.bind, ExceptT.mk, StateT.bind, h, Option.bind_some, ExceptT.bindCont]
  rfl

variable {find : Memory σ → Option α} {keep : α → Memory σ → Memory σ}

theorem run_remembered_of_some {a : α} (h : find memory = some a) :
    remembered find keep x memory = some (.ok a, memory) := by
  have hget : (get : Inspection σ (Memory σ)) memory = some (.ok memory, memory) := rfl
  rw [remembered, run_bind_of_ok hget, h]
  rfl

theorem run_remembered_of_ok {a : α} (h : find memory = none) (hx : x memory = some (.ok a, after)) :
    remembered find keep x memory = some (.ok a, keep a after) := by
  have hget : (get : Inspection σ (Memory σ)) memory = some (.ok memory, memory) := rfl
  rw [remembered, run_bind_of_ok hget, h]
  exact run_bind_of_ok hx

theorem run_remembered_of_error {e : LookupError} (h : find memory = none)
    (hx : x memory = some (.error e, after)) : remembered find keep x memory = some (.error e, after) := by
  have hget : (get : Inspection σ (Memory σ)) memory = some (.ok memory, memory) := rfl
  rw [remembered, run_bind_of_ok hget, h]
  exact run_bind_of_error hx

end

/-- An inspection ends as said, in a sound memory, and names the specifications that were being named before. -/
structure Ends (m : Metadata) (act : Inspection σ α) (memory : Memory σ) (ended : Except LookupError α)
    (after : Memory σ) : Prop where
  run : act memory = some (ended, after)
  sound : after.Sound m
  pending : after.pending = memory.pending

namespace Ends

variable {x : Inspection σ α} {f : α → Inspection σ β} {memory after after' : Memory σ}

theorem bind {a : α} {ended : Except LookupError β} (hx : Ends m x memory (.ok a) after)
    (hf : Ends m (f a) after ended after') : Ends m (x >>= f) memory ended after' where
  run := (run_bind_of_ok hx.run).trans hf.run
  sound := hf.sound
  pending := hf.pending.trans hx.pending

theorem bind_error {e : LookupError} (hx : Ends m x memory (.error e) after) :
    Ends m (x >>= f) memory (.error e) after where
  run := run_bind_of_error hx.run
  sound := hx.sound
  pending := hx.pending

end Ends

/-! ### What is found -/

/-- In every sound memory the inspection ends as expected while these specifications are being named, and it leaves the
methods as they are. -/
def Finds (m : Metadata) (pending : List Nat) (act : Inspection σ α) (expected : Except LookupError α) : Prop :=
  ∀ memory : Memory σ, memory.Sound m → memory.pending = pending →
    ∃ after, Ends m act memory expected after ∧ after.methods = memory.methods

namespace Finds

variable {pending : List Nat}

theorem lift (x : Except LookupError α) : Finds m pending (liftM x : Inspection σ α) x := by
  intro memory hm _
  exact ⟨memory, ⟨rfl, hm, rfl⟩, rfl⟩

theorem pure (a : α) : Finds m pending (Pure.pure a : Inspection σ α) (.ok a) := lift (.ok a)

theorem throw (e : LookupError) : Finds m pending (MonadExcept.throw e : Inspection σ α) (.error e) := lift (.error e)

/-- What comes next is only reached with what is found before. -/
theorem bind {x : Inspection σ α} {f : α → Inspection σ β} {y : Except LookupError α} {g : α → Except LookupError β}
    (hx : Finds m pending x y) (hf : ∀ a, y = .ok a → Finds m pending (f a) (g a)) :
    Finds m pending (x >>= f) (y >>= g) := by
  intro memory hm hpending
  obtain ⟨after, hends, hmethods⟩ := hx memory hm hpending
  cases y with
  | error e => exact ⟨after, hends.bind_error, hmethods⟩
  | ok a =>
    obtain ⟨after', hends', hmethods'⟩ := hf a rfl after hends.sound (hends.pending.trans hpending)
    exact ⟨after', hends.bind hends', hmethods'.trans hmethods⟩

theorem bind_ok {x : Inspection σ α} {f : α → Inspection σ β} {a : α} {y : Except LookupError β}
    (hx : Finds m pending x (.ok a)) (hf : Finds m pending (f a) y) : Finds m pending (x >>= f) y :=
  hx.bind (g := fun _ => y) fun b hb => by
    cases hb
    exact hf

theorem map {x : Inspection σ α} {y : Except LookupError α} (f : α → β) (hx : Finds m pending x y) :
    Finds m pending (f <$> x) (f <$> y) := by
  rw [map_eq_pure_bind, map_eq_pure_bind]
  exact hx.bind fun a _ => pure (f a)

/-- Remembering does not change what is found if what is remembered is what is found. -/
theorem remembered {find : Memory σ → Option α} {keep : α → Memory σ → Memory σ} {x : Inspection σ α}
    {y : Except LookupError α} (hx : Finds m pending x y)
    (hfind : ∀ memory : Memory σ, memory.Sound m → ∀ a, find memory = some a → y = .ok a)
    (hkeep : ∀ (memory : Memory σ) a, memory.Sound m → y = .ok a →
      (keep a memory).Sound m ∧ (keep a memory).pending = memory.pending ∧ (keep a memory).methods = memory.methods) :
    Finds m pending (Inspection.remembered find keep x) y := by
  intro memory hm hpending
  cases h : find memory with
  | some a =>
    obtain rfl := hfind memory hm a h
    exact ⟨memory, ⟨run_remembered_of_some h, hm, rfl⟩, rfl⟩
  | none =>
    obtain ⟨after, hends, hmethods⟩ := hx memory hm hpending
    cases y with
    | error e => exact ⟨after, ⟨run_remembered_of_error h hends.run, hends.sound, hends.pending⟩, hmethods⟩
    | ok a =>
      obtain ⟨hsound, hkept, hkept'⟩ := hkeep after a hends.sound rfl
      exact ⟨keep a after, ⟨run_remembered_of_ok h hends.run, hsound, hkept.trans hends.pending⟩,
        hkept'.trans hmethods⟩

/-- While a specification is being named it counts among those that are, and afterwards no more. -/
theorem whileNaming {rid : Nat} {x : Inspection σ α} {y : Except LookupError α} (hrid : rid ∉ pending)
    (hx : Finds m (rid :: pending) x y) : Finds m pending (Inspection.whileNaming rid x) y := by
  intro memory hm hpending
  obtain ⟨after, ⟨hrun, hsound, hafter⟩, hmethods⟩ := hx { memory with pending := rid :: memory.pending }
    (hm.withPending _) (by rw [hpending])
  refine ⟨{ after with pending := after.pending.filter (· != rid) }, ⟨?_, hsound.withPending _, ?_⟩, hmethods⟩
  · rw [Inspection.whileNaming, hrun]
    rfl
  · have hleft : ∀ other ∈ pending, (other != rid) = true := by
      intro other hother
      simp only [bne_iff_ne, ne_eq]
      rintro rfl
      exact hrid hother
    simp only [hafter, hpending, List.filter_cons, bne_self_eq_false, Bool.false_eq_true, if_false]
    exact List.filter_eq_self.2 hleft

end Finds

/-! ### Tables -/

variable {pending : List Nat}

/-- A table is read into the memory, whatever else the memory holds. -/
theorem run_rows (h : m.LaidOut) (table : Table) (memory : Memory σ) (ht : Memory.TablesSound m memory.tables) :
    ∃ tables, rows m table memory = some (.ok (m.rows table), { memory with tables }) ∧
      Memory.TablesSound m tables := by
  cases hlookup : memory.tables.lookup table with
  | some found =>
    obtain rfl := ht table found hlookup
    exact ⟨memory.tables, run_remembered_of_some hlookup, ht⟩
  | none =>
    obtain ⟨found, hfound, -⟩ := h.exists_rows table
    have hrows : m.rows table = found := by rw [Metadata.rows, hfound, Option.getD_some]
    refine ⟨(table, found) :: memory.tables, ?_, forall_lookup_cons hrows.symm ht⟩
    rw [hrows]
    exact run_remembered_of_ok hlookup (by rw [hfound]; rfl)

variable (h : m.LaidOut)
include h

theorem finds_rows (table : Table) : Finds m pending (rows m table : Inspection σ _) (.ok (m.rows table)) := by
  intro memory hm _
  obtain ⟨tables, hrun, ht⟩ := run_rows h table memory hm.tables
  exact ⟨{ memory with tables }, ⟨hrun, hm.withTables ht, rfl⟩, rfl⟩

theorem finds_row (table : Table) (rid : Nat) :
    Finds m pending (row m table rid : Inspection σ _) (m.row table rid) := by
  obtain ⟨found, hfound, hlength, -⟩ := h.exists_rows table
  have hrows : Finds m pending (rows m table : Inspection σ _) (.ok found) := by
    have hrows : Finds m pending (rows m table : Inspection σ _) (.ok (m.rows table)) := finds_rows h table
    rwa [Metadata.rows, hfound, Option.getD_some] at hrows
  rw [Metadata.row_eq_pick hfound hlength, Metadata.pick]
  refine hrows.bind_ok ?_
  split
  · exact .pure _
  · exact .throw _

private theorem finds_derived {find : Memory σ → Option α} {keep : α → Memory σ → Memory σ} {table : Table}
    {derive : List Row → α}
    (hfind : ∀ memory : Memory σ, memory.Sound m → ∀ a, find memory = some a → a = derive (m.rows table))
    (hkeep : ∀ memory : Memory σ, memory.Sound m → (keep (derive (m.rows table)) memory).Sound m ∧
      (keep (derive (m.rows table)) memory).pending = memory.pending ∧
      (keep (derive (m.rows table)) memory).methods = memory.methods) :
    Finds m pending (remembered find keep (do return derive (← rows m table))) (.ok (derive (m.rows table))) := by
  have hcompute : Finds m pending (do return derive (← rows m table) : Inspection σ α) (.ok (derive (m.rows table))) :=
    (finds_rows h table).bind_ok (.pure _)
  refine hcompute.remembered ?_ ?_
  · intro memory hm a ha
    rw [hfind memory hm a ha]
  · rintro memory _ hm ⟨⟩
    exact hkeep memory hm

theorem finds_methodOwners :
    Finds m pending (methodOwners m : Inspection σ _) (.ok (Assembly.ofMetadata m).methodOwners) :=
  finds_derived h (fun _ hm => hm.methodOwners) fun _ hm =>
    ⟨{ hm with methodOwners := fun _ h => (Option.some.inj h).symm }, rfl, rfl⟩

theorem finds_fieldOwners :
    Finds m pending (fieldOwners m : Inspection σ _) (.ok (Assembly.ofMetadata m).fieldOwners) :=
  finds_derived h (fun _ hm => hm.fieldOwners) fun _ hm =>
    ⟨{ hm with fieldOwners := fun _ h => (Option.some.inj h).symm }, rfl, rfl⟩

theorem finds_enclosing : Finds m pending (enclosing m : Inspection σ _) (.ok (Assembly.ofMetadata m).enclosing) :=
  finds_derived h (fun _ hm => hm.enclosing) fun _ hm =>
    ⟨{ hm with enclosing := fun _ h => (Option.some.inj h).symm }, rfl, rfl⟩

omit h in
/-- Every tag of an owner of type parameters stands for a table. -/
private theorem exists_decode_owner (value : Nat) :
    ∃ owner, CodedIndex.typeOrMethodDef.decode? value = some owner := by
  have htag : CodedIndex.typeOrMethodDef.tag value < CodedIndex.typeOrMethodDef.tables.length :=
    Nat.mod_lt value (by decide)
  exact ⟨_, by rw [CodedIndex.decode?, List.getElem?_eq_getElem htag, Option.map_some]⟩

omit h in
private theorem run_addGenericOwners (rows : List Row) (memory : Memory σ) (owners : List (Table × Nat))
    (howners : memory.genericOwners? = some owners) :
    addGenericOwners rows memory = some (.ok (), { memory with
      genericOwners? := some (owners ++ rows.filterMap fun row =>
        CodedIndex.typeOrMethodDef.decode? (row.column "Owner")) }) := by
  induction rows generalizing memory owners with
  | nil =>
    rw [List.filterMap_nil, List.append_nil, ← howners]
    rfl
  | cons row rest ih =>
    obtain ⟨owner, howner⟩ := exists_decode_owner (row.column "Owner")
    have hdecode : Metadata.decodeIndex .typeOrMethodDef (row.column "Owner") = .ok owner := by
      rw [Metadata.decodeIndex, howner]
    rw [List.filterMap_cons, howner, addGenericOwners, hdecode]
    refine (ih _ (owners ++ [owner]) (by simp only [howners, Option.map_some])).trans ?_
    simp only [List.append_assoc, List.cons_append, List.nil_append]

theorem finds_genericOwners :
    Finds m pending (genericOwners m : Inspection σ _) (.ok (Assembly.ofMetadata m).genericOwners) := by
  intro memory hm _
  have hget (memory : Memory σ) : (get : Inspection σ (Memory σ)) memory = some (.ok memory, memory) := rfl
  cases howners : memory.genericOwners? with
  | some owners =>
    refine ⟨memory, ⟨?_, hm, rfl⟩, rfl⟩
    rw [genericOwners, run_bind_of_ok (hget memory), howners, hm.genericOwners owners howners]
    rfl
  | none =>
    -- Until all rows are read the memory is not sound, so the run is followed step by step.
    obtain ⟨tables, hrows, ht⟩ := run_rows h .genericParam { memory with genericOwners? := some [] } hm.tables
    have hadd := run_addGenericOwners (m.rows .genericParam)
      { memory with genericOwners? := some [], tables } [] rfl
    refine ⟨{ memory with tables, genericOwners? := some (Assembly.ofMetadata m).genericOwners }, ⟨?_, ?_, rfl⟩, rfl⟩
    · rw [genericOwners, run_bind_of_ok (hget memory), howners]
      exact (run_bind_of_ok hrows).trans (run_bind_of_ok hadd)
    · exact { hm.withTables ht with genericOwners := fun _ h => (Option.some.inj h).symm }

theorem finds_name : Finds m pending (name m : Inspection σ _) (.ok (Assembly.ofMetadata m).name) := by
  have hname : (Assembly.ofMetadata m).name = Assembly.nameOf m := rfl
  have hassembly := h.exists_row_eq_ok_iff .assembly 1
  have hmodule := h.exists_row_eq_ok_iff .module 1
  rw [hname, Assembly.nameOf, name]
  split
  · obtain ⟨row, hrow⟩ := hassembly.2 (by omega)
    have hfind : Finds m pending (Inspection.row m .assembly 1 : Inspection σ _) _ := finds_row h .assembly 1
    rw [hrow] at hfind ⊢
    exact hfind.bind_ok (.pure _)
  · next hnone =>
    cases hrow : m.row .assembly 1 with
    | ok row =>
      have hpos := hassembly.1 ⟨row, hrow⟩
      omega
    | error e =>
      split
      · obtain ⟨row, hrow⟩ := hmodule.2 (by omega)
        have hfind : Finds m pending (Inspection.row m .module 1 : Inspection σ _) _ := finds_row h .module 1
        rw [hrow] at hfind ⊢
        exact hfind.bind_ok (.pure _)
      · cases hrow : m.row .module 1 with
        | ok row =>
          have hpos := hmodule.1 ⟨row, hrow⟩
          omega
        | error e => exact .pure _

end Inspection

end CilProbe
