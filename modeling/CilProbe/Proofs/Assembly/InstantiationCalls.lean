import CilProbe.Proofs.Assembly.InstantiationFlags
import CilProbe.Proofs.CallGraph.Expansion

/-!
# Calls of generic methods with type arguments

A generic method with type arguments is a method of the assembly and has an address, but code is only listed for the
definitions of methods (`listing?_eq_none`).  So graphs show it and the calls that lead to it, and the search does not
go on from it (`instantiation_unexpanded`): what the generic method calls is only found where its definition is shown.
-/

namespace CilProbe.Assembly

open Metadata (Table)
open CallGraph (nodeOf)

variable {a : Assembly} {token : Int} {m m' : Method}

theorem methodSpec_of_resolve (htable : Metadata.Token.table? token = some .methodSpec)
    (h : a.resolve token = .ok (.method m')) : a.methodSpec (Metadata.Token.rid token) = .ok m' := by
  have hstring : Metadata.Token.isString token = false := by
    refine Bool.eq_false_iff.2 fun hstring => ?_
    rw [Metadata.Token.table?, eq_of_beq hstring] at htable
    revert htable
    decide
  rw [resolve, hstring, if_neg Bool.false_ne_true, resolveMember, htable] at h
  dsimp only at h
  cases hspec : a.methodSpec (Metadata.Token.rid token) with
  | error e => rw [hspec] at h; contradiction
  | ok m =>
    rw [hspec] at h
    cases h
    rfl

/-- A method with type arguments keeps its own token. -/
theorem table?_of_resolve (htable : Metadata.Token.table? token = some .methodSpec)
    (h : a.resolve token = .ok (.method m')) : Metadata.Token.table? m'.token = some .methodSpec := by
  obtain ⟨_, _, _, _, _, _, _, _, _, heq, _⟩ := methodSpec_eq (methodSpec_of_resolve htable h)
  have hrid : Metadata.Token.rid token < 2 ^ 24 := by
    rw [Metadata.Token.rid]
    omega
  rw [congrArg Method.token heq]
  exact (token_make (by decide) hrid).1

/-! ### What is not listed -/

theorem listing?_eq_none {μ : Type → Type} [Monad μ] [LawfulMonad μ] (bodies : BodySource μ)
    (h : Metadata.Token.table? m.token ≠ some .methodDef) : a.listing? bodies m = pure none := by
  have haddress : a.bodyAddress? m = none := if_pos (.inr (.inl h))
  rw [listing?, code?, haddress]
  exact pure_bind _ _

theorem not_calls {t : Method} {kind : CallKind} {bodies : BodySource Id}
    (h : Metadata.Token.table? m.token ≠ some .methodDef) : ¬(a.callSource bodies).Calls m t kind := by
  rintro ⟨listing, line, hlisting, -⟩
  have hnone : Id.run (a.listing? bodies m) = none := listing?_eq_none bodies h
  exact Option.some_ne_none _ (hlisting.symm.trans hnone)

/-- What is not listed is shown without calls. -/
theorem source_ne_of_shown {bodies : BodySource Id} {root : Method} {maxDepth : Int} {g : CallGraph}
    {shown : List (Method × Nat)} (hshown : (a.callSource bodies).Explored root maxDepth g shown) {depth : Nat}
    (hm : (m, depth) ∈ shown) (h : Metadata.Token.table? m.token ≠ some .methodDef) :
    ∀ e ∈ g.edges, e.source ≠ m.id := by
  intro e he hsource
  obtain ⟨-, t, hcall, -⟩ := hshown.calls_of_mem_edges hm he hsource
  exact not_calls h hcall

/-- A method of the assembly with type arguments is where its generic method is, but it is not listed.  Graphs show it
with the calls that lead to it, and the search does not go on from it. -/
theorem instantiation_unexpanded {row : Metadata.Row} {target : Nat} {generic : Method}
    (htable : Metadata.Token.table? token = some .methodSpec)
    (hrow : a.metadata.row .methodSpec (Metadata.Token.rid token) = .ok row)
    (htarget : Metadata.decodeIndex .methodDefOrRef (row.column "Method") = .ok (.methodDef, target))
    (hgeneric : a.methodDef target = .ok generic) (h : a.resolve token = .ok (.method m')) :
    m'.assembly = a.name ∧ m'.rva = generic.rva ∧
      (∀ (μ : Type → Type) [Monad μ] [LawfulMonad μ] (bodies : BodySource μ), a.listing? bodies m' = pure none) ∧
      ∀ (bodies : BodySource Id) (root : Method) (maxDepth : Int) (g : CallGraph),
        Id.run ((a.callSource bodies).subgraph root maxDepth) = g →
          (∃ shown, (a.callSource bodies).Explored root maxDepth g shown) ∧
            ∀ shown, (a.callSource bodies).Explored root maxDepth g shown → ∀ depth, (m', depth) ∈ shown →
              ⟨m'.id, m'.displayName, false⟩ ∈ g.nodes ∧ ∀ e ∈ g.edges, e.source ≠ m'.id := by
  obtain ⟨row', table, target', m, types, hrow', htarget', hm, -, heq, -⟩ :=
    methodSpec_eq (methodSpec_of_resolve htable h)
  obtain rfl := Except.ok.inj (hrow.symm.trans hrow')
  obtain ⟨rfl, rfl⟩ := Prod.mk.inj (Except.ok.inj (htarget.symm.trans htarget'))
  obtain rfl : generic = m := by
    rcases hm with ⟨-, hm⟩ | ⟨htable', -⟩
    · exact Except.ok.inj (hgeneric.symm.trans hm)
    · contradiction
  obtain ⟨_, hdescribed⟩ := describedBy_of_methodDef hgeneric
  have hassembly : m'.assembly = a.name := (congrArg Method.assembly heq).trans hdescribed.assembly
  have hrva := congrArg Method.rva heq
  have hundefined : Metadata.Token.table? m'.token ≠ some .methodDef := by
    rw [table?_of_resolve htable h]
    decide
  refine ⟨hassembly, hrva, fun μ _ _ bodies => listing?_eq_none bodies hundefined, ?_⟩
  rintro bodies root maxDepth g rfl
  refine ⟨(a.callSource bodies).subgraph_explored root maxDepth, fun shown hshown depth hm' => ⟨?_, ?_⟩⟩
  · have hlocal : (a.callSource bodies).isLocal m' = true := beq_iff_eq.2 hassembly
    rw [hshown.nodes]
    refine List.mem_map.2 ⟨(m', depth), hm', ?_⟩
    rw [nodeOf, hlocal]
    rfl
  · exact source_ne_of_shown hshown hm' hundefined

/-- Metadata of methods `Each`, `Log` and `Run`.  The first one is generic, and there is a type argument for it. -/
private def eachRun : Buffer :=
  ([
    0x42, 0x53, 0x4A, 0x42, 1, 0, 1, 0, 0, 0, 0, 0, 4, 0, 0, 0, 0x76, 0x34, 0, 0, 0, 0, 3, 0, 0x48, 0, 0, 0, 0x5C, 0,
    0, 0, 0x23, 0x7E, 0, 0, 0xA4, 0, 0, 0, 0x10, 0, 0, 0, 0x23, 0x53, 0x74, 0x72, 0x69, 0x6E, 0x67, 0x73, 0, 0, 0, 0,
    0xB4, 0, 0, 0, 0x10, 0, 0, 0, 0x23, 0x42, 0x6C, 0x6F, 0x62, 0, 0, 0, 0, 0, 0, 0, 2, 0, 0, 1, 0x40, 0, 0, 0, 0,
    0x0C, 0, 0, 0, 0, 0, 0, 0, 0, 0, 0, 3, 0, 0, 0, 1, 0, 0, 0, 1, 0, 0, 0, 1, 0, 0, 0, 0, 0, 0x10, 0, 1, 0, 1, 0, 1,
    0, 2, 0, 0, 0, 0, 0, 0x10, 0, 6, 0, 8, 0, 1, 0, 3, 0, 0, 0, 0, 0, 0x10, 0, 0x0A, 0, 8, 0, 1, 0, 0, 0, 0, 0, 3, 0,
    0x0E, 0, 2, 0, 0x0C, 0, 0, 0, 0, 0x45, 0x61, 0x63, 0x68, 0, 0x4C, 0x6F, 0x67, 0, 0x52, 0x75, 0x6E, 0, 0x54, 0, 0,
    6, 0x10, 1, 1, 1, 0x1E, 0, 3, 0, 0, 1, 3, 0x0A, 1, 8] : Bytes).toArray

/-- `Run` calls `Each` with the type argument, and `Each` calls `Log`. -/
private def eachBodies : BodySource Id := fun address =>
  [(1, [0x1A, 0x28, 2, 0, 0, 6, 0x2A]), (2, [6, 0x2A]), (3, [0x1A, 0x28, 1, 0, 0, 0x2B, 0x2A])].lookup address

/-- The row with the type argument belongs to `Each`. -/
private def instantiatesEach (metadata : Metadata) : Bool :=
  (metadata.row .methodSpec 1).toOption.any fun row =>
    (Metadata.decodeIndex .methodDefOrRef (row.column "Method")).toOption == some (.methodDef, 1)

private def resolvesTo (p : Method → Bool) : Reference → Bool
  | .method m => p m
  | _ => false

/-- `Each` has a listing.  With the type argument it has none, and in the graph around `Run` nothing follows it. -/
private def losesLog (metadata : Metadata) : Bool :=
  let a := ofMetadata metadata
  (a.methodDef 1).toOption.any fun each => (a.methodDef 3).toOption.any fun run =>
    (a.resolve 0x2B000001).toOption.any <| resolvesTo fun m =>
      (Id.run (a.listing? eachBodies each)).isSome && (Id.run (a.listing? eachBodies m)).isNone &&
        let g := Id.run ((a.callSource eachBodies).subgraph run 3)
        g.callees run.id == [m.id] && g.callees m.id == []

private theorem read_eachRun :
    (Metadata.read eachRun).toOption.any (fun metadata => instantiatesEach metadata && losesLog metadata) = true := by
  decide +kernel

private theorem exists_of_instantiatesEach {metadata : Metadata} (h : instantiatesEach metadata = true) :
    ∃ row, metadata.row .methodSpec 1 = .ok row ∧
      Metadata.decodeIndex .methodDefOrRef (row.column "Method") = .ok (.methodDef, 1) := by
  obtain ⟨row, hrow, htarget⟩ := exists_of_toOption_any h
  exact ⟨row, hrow, eq_ok_of_toOption (eq_of_beq htarget)⟩

private theorem exists_of_resolvesTo {x : Except Metadata.LookupError Reference} {p : Method → Bool}
    (h : x.toOption.any (resolvesTo p) = true) : ∃ m, x = .ok (.method m) ∧ p m := by
  obtain ⟨found, hfound, h⟩ := exists_of_toOption_any h
  cases found with
  | method m => exact ⟨m, hfound, h⟩
  | field | type | text => contradiction

/-- What `Each` calls is lost where it is called with the type argument. -/
theorem callees_lost_each : ∃ metadata row each run m, Metadata.read eachRun = .ok metadata ∧
    metadata.row .methodSpec 1 = .ok row ∧
    Metadata.decodeIndex .methodDefOrRef (row.column "Method") = .ok (.methodDef, 1) ∧
    (ofMetadata metadata).methodDef 1 = .ok each ∧ (ofMetadata metadata).methodDef 3 = .ok run ∧
    (ofMetadata metadata).resolve 0x2B000001 = .ok (.method m) ∧
    Id.run ((ofMetadata metadata).listing? eachBodies each) ≠ none ∧
    Id.run ((ofMetadata metadata).listing? eachBodies m) = none ∧
    (Id.run (((ofMetadata metadata).callSource eachBodies).subgraph run 3)).callees run.id = [m.id] ∧
    (Id.run (((ofMetadata metadata).callSource eachBodies).subgraph run 3)).callees m.id = [] := by
  obtain ⟨metadata, hread, h⟩ := exists_of_toOption_any read_eachRun
  obtain ⟨hrow, hloses⟩ := Bool.and_eq_true_iff.1 h
  obtain ⟨row, hrow, htarget⟩ := exists_of_instantiatesEach hrow
  obtain ⟨each, heach, hloses⟩ := exists_of_toOption_any hloses
  obtain ⟨run, hrun, hloses⟩ := exists_of_toOption_any hloses
  obtain ⟨m, hm, hloses⟩ := exists_of_resolvesTo hloses
  simp only [Bool.and_eq_true, beq_iff_eq, Option.isSome_iff_ne_none, Option.isNone_iff_eq_none] at hloses
  obtain ⟨⟨hlisted, hunlisted⟩, hcallees, hnone⟩ := hloses
  exact ⟨metadata, row, each, run, m, hread, hrow, htarget, heach, hrun, hm, hlisted, hunlisted, hcallees, hnone⟩

theorem instantiation_unexpanded_each : ∃ metadata row each m, Metadata.read eachRun = .ok metadata ∧
    Metadata.Token.table? 0x2B000001 = some .methodSpec ∧
    metadata.row .methodSpec (Metadata.Token.rid 0x2B000001) = .ok row ∧
    Metadata.decodeIndex .methodDefOrRef (row.column "Method") = .ok (.methodDef, 1) ∧
    (ofMetadata metadata).methodDef 1 = .ok each ∧ (ofMetadata metadata).resolve 0x2B000001 = .ok (.method m) ∧
    m.rva = each.rva ∧ (ofMetadata metadata).listing? eachBodies m = pure none ∧
    ∃ g shown, Id.run (((ofMetadata metadata).callSource eachBodies).subgraph m 3) = g ∧
      ((ofMetadata metadata).callSource eachBodies).Explored m 3 g shown ∧ (m, 0) ∈ shown ∧
      ∀ e ∈ g.edges, e.source ≠ m.id := by
  obtain ⟨metadata, hread, h⟩ := exists_of_toOption_any read_eachRun
  obtain ⟨hrow, hloses⟩ := Bool.and_eq_true_iff.1 h
  obtain ⟨row, hrow, htarget⟩ := exists_of_instantiatesEach hrow
  obtain ⟨each, heach, hloses⟩ := exists_of_toOption_any hloses
  obtain ⟨run, -, hloses⟩ := exists_of_toOption_any hloses
  obtain ⟨m, hm, -⟩ := exists_of_resolvesTo hloses
  have htable : Metadata.Token.table? 0x2B000001 = some .methodSpec := by decide
  obtain ⟨-, hrva, hunlisted, hgraph⟩ := instantiation_unexpanded htable hrow htarget heach hm
  obtain ⟨⟨shown, hshown⟩, hsources⟩ := hgraph eachBodies m 3 _ rfl
  exact ⟨metadata, row, each, m, hread, htable, hrow, htarget, heach, hm, hrva, hunlisted Id eachBodies, _, shown, rfl,
    hshown, hshown.root_mem, (hsources shown hshown 0 hshown.root_mem).2⟩

end CilProbe.Assembly
