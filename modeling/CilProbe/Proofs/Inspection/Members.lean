import CilProbe.Inspection.Members
import CilProbe.Proofs.Assembly.Failure
import CilProbe.Proofs.Inspection.TypeNames

/-!
# Resolving tokens with a memory

Between two queries nothing is being named, and the methods in the memory are those that the definitions have
(`Memory.Settled`).  Asked then, an inspection answers as it would without a memory, and the memory is settled again;
asked at any other time it still ends, with a result or a failure that is tolerated (`Answers`).  This is kept when
inspections are put together, and so it holds for resolving any token: `answers_resolve`.

* Resolving a token ends, and leaves the type specifications that are being named as they were: `resolve_ends`.
-/

namespace CilProbe

open Metadata (Table LookupError)
open Assembly (Tolerable signatureResult maxNesting)

variable {σ α β : Type} {m : Metadata}

/-- Nothing is being named, and the remembered methods are those of the definitions. -/
structure Memory.Settled (m : Metadata) (memory : Memory σ) : Prop where
  pending : memory.pending = []
  methods : ∀ rid method, memory.methods.lookup rid = some method →
    (Assembly.ofMetadata m).methodDef rid = .ok method

/-- An empty memory is settled. -/
theorem Memory.Settled.empty (source : σ) : Memory.Settled m { source } where
  pending := rfl
  methods _ _ h := by contradiction

theorem Memory.Settled.of_eq {memory after : Memory σ} (h : memory.Settled m) (hpending : after.pending = memory.pending)
    (hmethods : after.methods = memory.methods) : after.Settled m where
  pending := hpending.trans h.pending
  methods := by
    rw [hmethods]
    exact h.methods

theorem Memory.Settled.withMethod {memory : Memory σ} (h : memory.Settled m) {rid : Nat} {method : Method}
    (hmethod : (Assembly.ofMetadata m).methodDef rid = .ok method) :
    Memory.Settled m { memory with methods := (rid, method) :: memory.methods } where
  pending := h.pending
  methods := forall_lookup_cons hmethod h.methods

namespace Inspection

/-- In every sound memory the inspection ends, and fails only with what is tolerated; in a settled one it ends as
expected, and the memory is settled afterwards. -/
def Answers (m : Metadata) (act : Inspection σ α) (expected : Except LookupError α) : Prop :=
  ∀ memory : Memory σ, memory.Sound m → ∃ ended after, Ends m act memory ended after ∧ Tolerable ended ∧
    (memory.Settled m → ended = expected ∧ after.Settled m)

/-- What is found without asking for methods, whichever specifications are being named. -/
theorem Finds.answers {act : Inspection σ α} {expected : List Nat → Except LookupError α}
    (hact : ∀ pending, Finds m pending act (expected pending)) (hexpected : ∀ pending, Tolerable (expected pending)) :
    Answers m act (expected []) := by
  intro memory hm
  obtain ⟨after, hends, hmethods⟩ := hact memory.pending memory hm rfl
  refine ⟨_, after, hends, hexpected _, fun hmemory => ⟨?_, hmemory.of_eq hends.pending hmethods⟩⟩
  rw [hmemory.pending]

namespace Answers

theorem lift {x : Except LookupError α} (hx : Tolerable x) : Answers m (liftM x : Inspection σ α) x :=
  Finds.answers (fun _ => .lift x) fun _ => hx

theorem pure (a : α) : Answers m (Pure.pure a : Inspection σ α) (.ok a) := lift (.ok a)

theorem throw {e : LookupError} (he : e.isTolerated) :
    Answers m (MonadExcept.throw e : Inspection σ α) (.error e) := lift (.error he)

theorem bind {x : Inspection σ α} {f : α → Inspection σ β} {y : Except LookupError α} {g : α → Except LookupError β}
    (hx : Answers m x y) (hf : ∀ a, Answers m (f a) (g a)) : Answers m (x >>= f) (y >>= g) := by
  intro memory hm
  obtain ⟨ended, after, hends, htolerable, hsettled⟩ := hx memory hm
  cases ended with
  | error e =>
    refine ⟨.error e, after, hends.bind_error, .error (htolerable e rfl), fun hmemory => ?_⟩
    obtain ⟨rfl, hafter⟩ := hsettled hmemory
    exact ⟨rfl, hafter⟩
  | ok a =>
    obtain ⟨ended, after', hends', htolerable', hsettled'⟩ := hf a after hends.sound
    refine ⟨ended, after', hends.bind hends', htolerable', fun hmemory => ?_⟩
    obtain ⟨rfl, hafter⟩ := hsettled hmemory
    exact hsettled' hafter

/-- What comes after something that is found in any case. -/
theorem of_finds {x : Inspection σ α} {f : α → Inspection σ β} {a : α} {y : Except LookupError β}
    (hx : ∀ pending, Finds m pending x (.ok a)) (hf : Answers m (f a) y) : Answers m (x >>= f) y := by
  intro memory hm
  obtain ⟨after, hends, hmethods⟩ := hx memory.pending memory hm rfl
  obtain ⟨ended, after', hends', htolerable, hsettled⟩ := hf after hends.sound
  exact ⟨ended, after', hends.bind hends', htolerable, fun hmemory => hsettled (hmemory.of_eq hends.pending hmethods)⟩

theorem map {x : Inspection σ α} {y : Except LookupError α} (f : α → β) (hx : Answers m x y) :
    Answers m (f <$> x) (f <$> y) := by
  rw [map_eq_pure_bind, map_eq_pure_bind]
  exact hx.bind fun a => pure (f a)

theorem mapM {f : α → Inspection σ β} {g : α → Except LookupError β} (hf : ∀ a, Answers m (f a) (g a)) (l : List α) :
    Answers m (l.mapM f) (l.mapM g) := by
  induction l with
  | nil => exact pure []
  | cons a l ih =>
    rw [List.mapM_cons, List.mapM_cons]
    exact (hf a).bind fun b => ih.bind fun bs => pure (b :: bs)

theorem tolerated {x : Inspection σ α} {y : Except LookupError α} (fallback : α) (hx : Answers m x y) :
    Answers m (Inspection.tolerated fallback x) (LookupError.tolerate fallback y) := by
  intro memory hm
  obtain ⟨ended, after, hends, htolerable, hsettled⟩ := hx memory hm
  refine ⟨LookupError.tolerate fallback ended, after, ⟨?_, hends.sound, hends.pending⟩, ?_, fun hmemory => ?_⟩
  · rw [Inspection.tolerated, hends.run]
    rfl
  · cases ended with
    | ok a => exact .ok a
    | error e =>
      rw [LookupError.tolerate, if_pos (htolerable e rfl)]
      exact .ok fallback
  · obtain ⟨rfl, hafter⟩ := hsettled hmemory
    exact ⟨rfl, hafter⟩

end Answers

/-- Signatures are read with a memory as they are read without one. -/
theorem alike_answers (m : Metadata) :
    Signature.Alike (m := Inspection σ) (n := Except (Signature.ReadError LookupError))
      fun _ x y => Answers m x (signatureResult y) where
  pure a := .pure a
  bind hx hf := by
    rw [signatureResult_bind]
    exact hx.bind hf
  flawed _ := .throw rfl

section

variable (h : m.LaidOut)
include h

theorem answers_row (table : Table) (rid : Nat) : Answers m (row m table rid : Inspection σ _) (m.row table rid) :=
  Finds.answers (fun _ => finds_row h table rid) fun _ =>
    Assembly.tolerable_row (a := Assembly.ofMetadata m) h table rid

theorem answers_typeName (table : Table) (rid : Nat) :
    Answers m (typeName m table rid : Inspection σ _) ((Assembly.ofMetadata m).typeName table rid) :=
  Finds.answers (fun _ => finds_typeName h table rid) fun _ => Assembly.tolerable_typeNameWithin h _ _ _ _ _

/-! ### Signatures -/

private theorem answers_resolver (table : Table) (rid : Nat) : Answers m (typeName m table rid : Inspection σ _)
    (signatureResult (Signature.orUnnamed (Assembly.ofMetadata m).resolver table rid)) := by
  rw [signatureResult_orUnnamed]
  exact answers_typeName h table rid

theorem answers_methodSig (blob : Bytes) :
    Answers m (methodSig m blob : Inspection σ _) ((Assembly.ofMetadata m).methodSig blob) :=
  ((alike_answers m).method (answers_resolver h) _).bind fun _ => .pure _

theorem answers_fieldType (blob : Bytes) :
    Answers m (fieldType m blob : Inspection σ _) ((Assembly.ofMetadata m).fieldType blob) := by
  have hread := (alike_answers (σ := σ) m).field (answers_resolver h) blob
  rw [Signature.field_orUnnamed] at hread
  exact hread.bind fun _ => .pure _

private theorem answers_instantiation (blob : Bytes) :
    Answers m (Signature.Reading.instantiation (typeName m) blob : Inspection σ _)
      (signatureResult (Signature.readInstantiation (Assembly.ofMetadata m).resolver blob)) := by
  rw [← Signature.instantiation_orUnnamed]
  exact (alike_answers m).instantiation (answers_resolver h) blob

/-! ### Definitions -/

theorem answers_ownerName (owner? : Option Nat) :
    Answers m (ownerName m owner? : Inspection σ _) ((Assembly.ofMetadata m).ownerName owner?) := by
  cases owner? with
  | none => exact .pure _
  | some owner => exact answers_typeName h .typeDef owner

omit h in
theorem answers_parameterNames {a : Assembly} (h : a.metadata.LaidOut) (rid first : Nat) :
    Answers a.metadata (parameterNames a.metadata rid first : Inspection σ _) (a.parameterNames rid first) := by
  have hparams (rid : Nat) := answers_row (σ := σ) h .param rid
  unfold parameterNames Assembly.parameterNames
  by_cases hnext : rid < a.metadata.rowCount .methodDef
  · have hstop := (answers_row (σ := σ) h .methodDef (rid + 1)).map (·.column "ParamList")
    simp only [if_pos hnext]
    exact hstop.bind fun stop => (Answers.mapM hparams _).bind fun rows => .pure _
  · simp only [if_neg hnext]
    exact (Answers.pure _).bind fun stop => (Answers.mapM hparams _).bind fun rows => .pure _

theorem answers_readMethodDef (rid : Nat) :
    Answers m (readMethodDef m rid : Inspection σ _) ((Assembly.ofMetadata m).methodDef rid) := by
  unfold readMethodDef Assembly.methodDef
  refine (answers_row h .methodDef rid).bind fun row => .of_finds (fun _ => finds_methodOwners h) ?_
  refine (answers_ownerName h _).bind fun declaringType => ?_
  refine Answers.bind (.tolerated _ ((answers_methodSig h _).bind fun _ => .pure _)) fun types => ?_
  refine .of_finds (fun _ => finds_genericOwners h) (.of_finds (fun _ => finds_name h) ?_)
  exact (answers_parameterNames (a := Assembly.ofMetadata m) h rid _).bind fun _ => .pure _

/-- A remembered method is what reading its definition again would give. -/
theorem answers_methodDef (rid : Nat) :
    Answers m (methodDef m rid : Inspection σ _) ((Assembly.ofMetadata m).methodDef rid) := by
  intro memory hm
  cases hlookup : memory.methods.lookup rid with
  | some method =>
    refine ⟨.ok method, memory, ⟨run_remembered_of_some hlookup, hm, rfl⟩, .ok method, fun hmemory => ⟨?_, hmemory⟩⟩
    exact (hmemory.methods rid method hlookup).symm
  | none =>
    obtain ⟨ended, after, hends, htolerable, hsettled⟩ := answers_readMethodDef (σ := σ) h rid memory hm
    cases ended with
    | error e =>
      exact ⟨.error e, after, ⟨run_remembered_of_error hlookup hends.run, hends.sound, hends.pending⟩, htolerable,
        hsettled⟩
    | ok method =>
      refine ⟨.ok method, { after with methods := (rid, method) :: after.methods },
        ⟨run_remembered_of_ok hlookup hends.run, hends.sound.withMethods _, hends.pending⟩, .ok method,
        fun hmemory => ?_⟩
      obtain ⟨hmethod, hafter⟩ := hsettled hmemory
      exact ⟨hmethod, hafter.withMethod hmethod.symm⟩

theorem answers_findMethod (token : Int) :
    Answers m (findMethod m token : Inspection σ _) ((Assembly.ofMetadata m).findMethod token) := by
  unfold findMethod Assembly.findMethod
  split
  · exact answers_methodDef h _
  · exact .throw rfl

theorem answers_methods : Answers m (methods m : Inspection σ _) (Assembly.ofMetadata m).tryMethods := by
  have hmethod (rid : Nat) := ((answers_methodDef (σ := σ) h rid).map some).tolerated none
  exact (Answers.mapM hmethod _).bind fun _ => .pure _

/-! ### Members -/

/-- Only after the type was named its assembly is searched, which then fails with nothing that is not tolerated. -/
private theorem answers_typeWithAssembly (table : Table) (rid : Nat) :
    Answers m (do let type ← typeName m table rid; return (type, ← typeAssembly m table rid) : Inspection σ _) (do
      let type ← (Assembly.ofMetadata m).typeName table rid
      return (type, ← (Assembly.ofMetadata m).typeAssembly table rid)) := by
  have hfinds (pending : List Nat) :
      Finds m pending (do let type ← typeName m table rid; return (type, ← typeAssembly m table rid) :
        Inspection σ _) (do
          let type ← (Assembly.ofMetadata m).typeNameWithin (m.rowCount .typeSpec + 2) pending table (maxNesting + 1) rid
          let assembly ← (Assembly.ofMetadata m).typeAssemblyWithin (maxNesting + 1) table rid
          return (type, assembly)) :=
    (finds_typeName h table rid).bind fun _ _ => (finds_typeAssemblyWithin h _ table rid).bind fun _ _ => .pure _
  refine Finds.answers hfinds fun pending => ?_
  have hname := Assembly.tolerable_typeNameWithin (a := Assembly.ofMetadata m) h (m.rowCount .typeSpec + 2) pending
    table (maxNesting + 1) rid
  cases htype : (Assembly.ofMetadata m).typeNameWithin (m.rowCount .typeSpec + 2) pending table (maxNesting + 1) rid with
  | error e => exact .error (hname e htype)
  | ok type => exact (Assembly.tolerable_typeAssemblyWithin h htype _).bind fun _ => .pure _

theorem answers_memberParent (table : Table) (rid : Nat) :
    Answers m (memberParent m table rid : Inspection σ _) ((Assembly.ofMetadata m).memberParent table rid) := by
  cases table with
  | methodDef => exact (answers_methodDef h rid).bind fun _ => .pure _
  | moduleRef => exact (answers_row h .moduleRef rid).bind fun _ => .pure _
  | _ => exact answers_typeWithAssembly h _ rid

theorem answers_memberRef (rid : Nat) :
    Answers m (memberRef m rid : Inspection σ _) ((Assembly.ofMetadata m).memberRef rid) := by
  refine (answers_row h .memberRef rid).bind fun row => ?_
  refine (Answers.lift (Assembly.tolerable_decodeIndex _ _)).bind fun (table, parent) => ?_
  refine (answers_memberParent h table parent).bind fun (declaringType, assembly) => ?_
  dsimp only
  rw [Assembly.metadata_ofMetadata]
  split
  · exact (answers_fieldType h _).bind fun _ => .pure _
  · exact (answers_methodSig h _).bind fun _ => .pure _

theorem answers_methodSpec (rid : Nat) :
    Answers m (methodSpec m rid : Inspection σ _) ((Assembly.ofMetadata m).methodSpec rid) := by
  refine (answers_row h .methodSpec rid).bind fun row => ?_
  refine (Answers.lift (Assembly.tolerable_decodeIndex _ _)).bind fun (table, target) => ?_
  dsimp only
  by_cases htable : table = .methodDef
  · rw [if_pos htable, if_pos htable]
    exact (answers_methodDef h target).bind fun method => (answers_instantiation h _).bind fun _ => .pure _
  · rw [if_neg htable, if_neg htable]
    refine (answers_memberRef h target).bind fun member => ?_
    cases member with
    | inl method => exact (Answers.pure method).bind fun method => (answers_instantiation h _).bind fun _ => .pure _
    | inr field => exact .throw rfl

theorem answers_fieldDef (rid : Nat) :
    Answers m (fieldDef m rid : Inspection σ _) ((Assembly.ofMetadata m).fieldDef rid) := by
  refine (answers_row h .field rid).bind fun row => .of_finds (fun _ => finds_fieldOwners h) ?_
  exact (answers_ownerName h _).bind fun _ => Answers.bind (.tolerated _ (answers_fieldType h _)) fun _ => .pure _

/-! ### Tokens -/

theorem answers_resolveMember (token : Int) :
    Answers m (resolveMember m token : Inspection σ _) ((Assembly.ofMetadata m).resolveMember token) := by
  have hother (table : Option Table) : Answers m (throw (.notMember token table) : Inspection σ Reference)
      (.error (.notMember token table)) := .throw rfl
  have htype (table : Table) := (answers_typeName (σ := σ) h table (Metadata.Token.rid token)).map Reference.type
  unfold resolveMember Assembly.resolveMember
  cases Metadata.Token.table? token with
  | none => exact hother none
  | some table =>
    cases table with
    | methodDef => exact (answers_methodDef h _).map _
    | memberRef => exact (answers_memberRef h _).map _
    | methodSpec => exact (answers_methodSpec h _).map _
    | field => exact (answers_fieldDef h _).map _
    | typeDef => exact htype .typeDef
    | typeRef => exact htype .typeRef
    | typeSpec => exact htype .typeSpec
    | _ => exact hother _

omit h in
/-- What is wrong with a reference to a literal string is tolerated. -/
theorem tolerable_userStringOf (token : Int) : Tolerable (m.userStringOf token) := by
  rw [Metadata.userStringOf]
  split
  · rw [Metadata.userString]
    split
    · exact .error rfl
    split
    · exact .error rfl
    split
    · exact .error rfl
    split
    · exact .error rfl
    · exact .ok _
  · exact .error rfl

theorem answers_resolve (token : Int) :
    Answers m (resolve m token : Inspection σ _) ((Assembly.ofMetadata m).resolve token) := by
  unfold resolve Assembly.resolve
  split
  · exact (Answers.lift (tolerable_userStringOf token)).map _
  · exact answers_resolveMember h token

end

/-- Whatever the metadata refers to and whichever specifications are being named, resolving a token ends: with what the
token names, or because something is missing or invalid. -/
theorem resolve_ends {data : Buffer} (h : Metadata.read data = .ok m) (memory : Memory σ) (hm : memory.Sound m)
    (token : Int) : ∃ ended after, Ends m (resolve m token) memory ended after ∧
      ∀ e, ended = .error e → e.category = .missing ∨ e.category = .invalid := by
  obtain ⟨ended, after, hends, htolerable, -⟩ := answers_resolve (.of_read h) token memory hm
  refine ⟨ended, after, hends, fun e he => ?_⟩
  have htolerated : e.isTolerated = true := htolerable e he
  cases hcategory : e.category with
  | missing => exact .inl rfl
  | invalid => exact .inr rfl
  | outOfRange =>
    rw [LookupError.isTolerated, hcategory] at htolerated
    contradiction

/-- Metadata with two type specifications that refer to each other, one of them as a pointer, and with a method that
returns the first of them. -/
def circular : Buffer :=
  #[0x42, 0x53, 0x4A, 0x42, 1, 0, 1, 0, 0, 0, 0, 0, 4, 0, 0, 0, 0x76, 0x34, 0, 0, 0, 0, 2, 0,
    52, 0, 0, 0, 50, 0, 0, 0, 0x23, 0x7E, 0, 0,
    102, 0, 0, 0, 13, 0, 0, 0, 0x23, 0x42, 0x6C, 0x6F, 0x62, 0, 0, 0,
    0, 0, 0, 0, 2, 0, 0, 1, 0x40, 0, 0, 8, 0, 0, 0, 0, 0, 0, 0, 0, 0, 0, 0, 0, 1, 0, 0, 0, 2, 0, 0, 0,
    0x50, 0x20, 0, 0, 0, 0, 0x10, 0, 0, 0, 8, 0, 1, 0, 1, 0, 4, 0,
    0, 2, 0x12, 0x0A, 3, 0x0F, 0x12, 0x06, 4, 0, 0, 0x12, 0x06]

theorem resolve_ends_circular :
    ∃ metadata, Metadata.read circular = .ok metadata ∧ ∃ after : Memory Unit,
      Ends metadata (resolve metadata 0x1B000001) { source := () } (.error (.selfReference 1)) after := by
  have hrun : (Metadata.read circular).toOption.any (fun metadata =>
      (resolve metadata 0x1B000001 ({ source := () } : Memory Unit)).map Prod.fst =
        some (.error (.selfReference 1))) = true := by decide +kernel
  cases h : Metadata.read circular with
  | error e => rw [h] at hrun; contradiction
  | ok metadata =>
    obtain ⟨ended, after, hends, -⟩ := resolve_ends h ({ source := () } : Memory Unit) (.empty ()) 0x1B000001
    rw [h] at hrun
    have hended := of_decide_eq_true hrun
    rw [hends.run] at hended
    obtain rfl := Option.some.inj hended
    exact ⟨metadata, rfl, after, hends⟩

end Inspection

end CilProbe
