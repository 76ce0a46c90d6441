import CilProbe.Binary64.Text
import CilProbe.Proofs.Assembly.Failure
import CilProbe.Proofs.CallGraph.Build
import CilProbe.Proofs.Code.Text

/-!
# Inspection does not fail

Metadata that has been accepted can be inspected, whatever it refers to and whatever the bodies of its methods are
(`Assembly.inspectable`).  What is left to show for this are the places where a failure would not be tolerated: rows
outside the data, failures of other kinds than the tolerated ones while methods are listed, branches without an offset
to write, and edges that a graph refuses.
-/

namespace CilProbe.Assembly

open Metadata (Table)

/-- Everything that is asked of an assembly has an answer. -/
structure Inspectable {σ : Type} (a : Assembly) (bodies : BodySource (StateM σ)) : Prop where
  rows (table : Table) : ∃ rows, a.metadata.rows? table = some rows ∧ rows.length = a.metadata.rowCount table ∧
    ∀ row ∈ rows, row.table = table ∧ row.values.map (·.1) = table.schema.map (·.1)
  methods : a.tryMethods = .ok a.methods
  /-- The lines of a listing have texts. -/
  listing : ∀ m ∈ a.methods, ∀ state listing, ((a.listing? bodies m).run state).1 = some listing →
    ∀ line ∈ listing.lines,
      line.tryRender Binary64.toText Reference.text? = some (line.render Binary64.toText Reference.text?)
  graph (state : σ) : (a.callSource bodies).tryGraph.run state =
    (.ok ((a.callSource bodies).graph.run state).1, ((a.callSource bodies).graph.run state).2)
  subgraph : ∀ m ∈ a.methods, ∀ (maxDepth : Int) (state : σ),
    ((a.callSource bodies).trySubgraph m maxDepth).run state =
      (.ok (((a.callSource bodies).subgraph m maxDepth).run state).1,
        (((a.callSource bodies).subgraph m maxDepth).run state).2)

private theorem exists_code_of_listing {σ : Type} {a : Assembly} {bodies : BodySource (StateM σ)} {m : Method}
    {state : σ} {listing : Listing Reference} (h : ((a.listing? bodies m).run state).1 = some listing) :
    ∃ code, listing = a.listingOf code := by
  have hcode : (((a.code? bodies m).run state).1).map a.listingOf = some listing := h
  obtain ⟨code, -, hlisting⟩ := Option.map_eq_some_iff.1 hcode
  exact ⟨code, hlisting.symm⟩

theorem inspectable {data : Buffer} {metadata : Metadata} (h : Metadata.read data = .ok metadata) {σ : Type}
    (bodies : BodySource (StateM σ)) : (ofMetadata metadata).Inspectable bodies where
  rows := (Metadata.LaidOut.of_read h).exists_rows
  methods := tryMethods_eq (Metadata.LaidOut.of_read h)
  listing m _ state listing hlisting := by
    obtain ⟨code, rfl⟩ := exists_code_of_listing hlisting
    exact Listing.tryRender_resolve _ code _ _
  graph state := by
    rw [CallSource.tryGraph_eq]
    rfl
  subgraph m _ maxDepth state := by
    rw [CallSource.trySubgraph_eq]
    rfl

/-- Metadata with one method and no name, signature or owner for it. -/
private def oneMethod : Buffer :=
  #[0x42, 0x53, 0x4A, 0x42, 1, 0, 1, 0, 0, 0, 0, 0, 4, 0, 0, 0, 0x76, 0x34, 0, 0, 0, 0, 1, 0,
    36, 0, 0, 0, 42, 0, 0, 0, 0x23, 0x7E, 0, 0,
    0, 0, 0, 0, 2, 0, 0, 1, 0x40, 0, 0, 0, 0, 0, 0, 0, 0, 0, 0, 0, 0, 0, 0, 0, 1, 0, 0, 0,
    0x50, 0x20, 0, 0, 0, 0, 0x10, 0, 0, 0, 0, 0, 1, 0]

/-- Bodies that are all the same: a call of the first method. The state counts how often one was read. -/
private def callFirst : BodySource (StateM Nat) := fun _ count =>
  (some [0x1A, 0x28, 0x01, 0, 0, 0x06, 0x2A], count + 1)

theorem inspectable_oneMethod :
    ∃ metadata, Metadata.read oneMethod = .ok metadata ∧ (ofMetadata metadata).methods.length = 1 ∧
      (ofMetadata metadata).Inspectable callFirst := by
  have hread : (Metadata.read oneMethod).toOption.any
      (fun metadata => decide ((ofMetadata metadata).methods.length = 1)) = true := by decide +kernel
  cases h : Metadata.read oneMethod with
  | error e => rw [h] at hread; contradiction
  | ok metadata =>
    rw [h] at hread
    exact ⟨metadata, rfl, of_decide_eq_true hread, inspectable h callFirst⟩

end CilProbe.Assembly
