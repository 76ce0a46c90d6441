import CilProbe.Proofs.Signature.Failure
import CilProbe.Proofs.Signature.RoundTrip

/-!
# How far a type goes

A type that is read from a signature takes bytes that stand there, and these alone determine it: whatever stands before
them and behind them, it is read again with the same end (`readType_refused_or_settled`).  Counts in the signature may
be huge, and a byte of a generic instance is skipped unchecked; neither leads out of the signature.

The induction is on the levels of nesting.  How many levels a reader may go depends on the bytes that are left, so a
shorter signature is read with fewer of them; a step that succeeds is thus compared with the steps of all levels that
are no fewer than the bytes it took (`Consumes`).
-/

namespace CilProbe.Signature

variable {ε α β ν : Type}

/-! ### What a step takes -/

/-- From a place on there are bytes, up to another place, that all steps with as many levels read as `x`. -/
def Takes (steps : Nat → Step ε α) (x : α) (c c' : Cursor) : Prop :=
  ∃ bs, c.rest = bs ++ c'.rest ∧ c'.offset = c.offset + bs.length ∧ ∀ d, bs.length ≤ d → Reads (steps d) bs x

/-- A first byte that selects the step for the bytes behind it, which may go one level less. -/
theorem Takes.cons {steps next : Nat → Step ε α} {x : α} {first : UInt8} {offset : Int} {rest : Bytes} {c' : Cursor}
    (h : Takes next x ⟨offset + 1, rest⟩ c')
    (hcons : ∀ d, ∃ d', d ≤ d' ∧
      ∀ offset rest, steps (d + 1) ⟨offset, first :: rest⟩ = next d' ⟨offset + 1, rest⟩) :
    Takes steps x ⟨offset, first :: rest⟩ c' := by
  obtain ⟨bs, hrest, hoffset, hreads⟩ := h
  refine ⟨first :: bs, congrArg (first :: ·) hrest, ?_, fun d hd => ?_⟩
  · dsimp only at hoffset ⊢
    rw [hoffset, List.length_cons]
    omega
  · rw [List.length_cons] at hd
    obtain ⟨d, rfl⟩ : ∃ n, d = n + 1 := ⟨d - 1, by omega⟩
    obtain ⟨d', hd', hnext⟩ := hcons d
    exact (hreads d' (by omega)).cons hnext

/-- Whatever the step of a level reads, it takes. -/
def Consumes (steps : Nat → Step ε α) (depth : Nat) : Prop :=
  ∀ c x c', steps depth c = .ok (x, c') → Takes steps x c c'

namespace Consumes

variable {steps : Nat → Step ε α} {depth : Nat}

theorem pure (x : α) : Consumes (fun _ c => Pure.pure (x, c) : Nat → Step ε α) depth := by
  rintro c _ _ ⟨⟩
  exact ⟨[], rfl, by simp, fun _ _ => .pure x⟩

theorem bind {next : Nat → α × Cursor → Except (ReadError ε) (β × Cursor)} (h : Consumes steps depth)
    (hnext : ∀ x, Consumes (fun d c => next d (x, c)) depth) :
    Consumes (fun d c => steps d c >>= next d) depth := by
  intro c y c' hread
  obtain ⟨⟨x, c₁⟩, hx, hy⟩ := exists_of_bind_eq_ok hread
  obtain ⟨bs, hrest, hoffset, hreads⟩ := h c x c₁ hx
  obtain ⟨bs', hrest', hoffset', hreads'⟩ := hnext x c₁ y c' hy
  refine ⟨bs ++ bs', ?_, ?_, fun d hd => ?_⟩
  · rw [hrest, hrest', List.append_assoc]
  · rw [hoffset', hoffset, List.length_append, Int.natCast_add, Int.add_assoc]
  · rw [List.length_append] at hd
    exact (hreads d (by omega)).bind (fun x c => next d (x, c)) (hreads' d (by omega))

theorem map (f : α → β) (h : Consumes steps depth) :
    Consumes (fun d c => steps d c >>= fun p => Pure.pure (f p.1, p.2)) depth :=
  h.bind fun x => .pure (f x)

/-- A step that goes by the first byte and reads what stands behind it. -/
theorem cons (next : UInt8 → Nat → Step ε α) (hnext : ∀ first, Consumes (next first) depth)
    (hnil : ∀ offset, ∃ e, steps depth ⟨offset, []⟩ = .error e)
    (hcons : ∀ first d offset rest, steps d ⟨offset, first :: rest⟩ = next first d ⟨offset + 1, rest⟩) :
    Consumes steps depth := by
  rintro ⟨offset, rest⟩ x c' hread
  cases rest with
  | nil =>
    obtain ⟨e, he⟩ := hnil offset
    rw [he] at hread
    contradiction
  | cons first rest =>
    rw [hcons] at hread
    exact (hnext first _ x c' hread).cons fun d => ⟨d + 1, by omega, hcons first (d + 1)⟩

end Consumes

theorem consumes_number {depth : Nat} : Consumes (fun _ => readNumber : Nat → Step ε Nat) depth := by
  rintro ⟨offset, rest⟩ n c' hread
  dsimp only [readNumber] at hread
  split at hread
  · next n' size hsize =>
    cases hread
    obtain ⟨bs, rest', rfl, rfl, hall⟩ := Compressed.exists_of_read? hsize
    refine ⟨bs, by rw [Cursor.skip, List.drop_left], rfl, fun d _ offset' rest'' => ?_⟩
    simp only [readNumber, hall rest'', Cursor.skip, List.drop_left]
    rfl
  · contradiction

theorem consumes_times {steps : Nat → Step ε α} {depth : Nat} (h : Consumes steps depth) (count : Nat) :
    Consumes (fun d => readTimes (steps d) count) depth := by
  induction count with
  | zero => exact .pure []
  | succ count ih => exact h.bind fun x => ih.bind fun xs => .pure (x :: xs)

theorem consumes_counted {steps : Nat → Step ε α} {depth : Nat} (h : Consumes steps depth) :
    Consumes (fun d => readCounted (steps d)) depth :=
  consumes_number.bind fun count => consumes_times h count

/-! ### What a type takes -/

section

variable {resolve : Metadata.Table → Nat → Except (ReadError ε) ν} {steps : Nat → Step ε (TypeSig ν)} {depth : Nat}

theorem consumes_reference : Consumes (fun _ => Reading.reference resolve) depth := by
  refine consumes_number.bind fun value => ?_
  dsimp only
  cases Metadata.CodedIndex.typeDefOrRef.decode? value with
  | none => exact nofun
  | some row =>
    dsimp only
    cases resolve row.1 row.2 with
    | error e => exact nofun
    | ok name => exact .pure name

theorem consumes_parts (h : Consumes steps depth) (convention genericParameters : Nat) :
    Consumes (fun d => readParts (steps d) convention genericParameters) depth :=
  consumes_number.bind fun _ => h.bind fun result => (consumes_times h _).bind fun parameters =>
    .pure (MethodSig.mk convention genericParameters result parameters)

theorem consumes_method (h : Consumes steps depth) : Consumes (fun d => readMethodWith (steps d)) depth := by
  refine .cons (fun first d c =>
    if MethodSig.isGeneric first.toNat then readNumber c >>= fun p => readParts (steps d) first.toNat p.1 p.2
    else readParts (steps d) first.toNat 0 c) (fun first => ?_) (fun _ => ⟨_, rfl⟩) fun _ _ _ _ => rfl
  split
  · exact consumes_number.bind fun number => consumes_parts h first.toNat number
  · exact consumes_parts h first.toNat 0

theorem consumes_array (h : Consumes steps depth) :
    Consumes (fun d c => do
      let (element, c) ← steps d c
      let (rank, c) ← readNumber c
      let (sizes, c) ← readCounted readNumber c
      let (lowerBounds, c) ← readCounted readNumber c
      return (TypeSig.array element rank sizes lowerBounds, c)) depth :=
  h.bind fun element => consumes_number.bind fun rank => (consumes_counted consumes_number).bind fun sizes =>
    (consumes_counted consumes_number).bind fun lowerBounds => .pure (TypeSig.array element rank sizes lowerBounds)

/-- The byte that is skipped stands in front of a reference, and so inside the signature. -/
theorem consumes_generic (h : Consumes steps depth) :
    Consumes (fun d c => do
      let isValueType := c.rest.head? == some 0x11
      let (name, c) ← Reading.reference resolve (c.skip 1)
      let (arguments, c) ← readCounted (steps d) c
      return (TypeSig.generic isValueType name arguments, c)) depth := by
  refine .cons (fun first d c => do
    let (name, c) ← Reading.reference resolve c
    let (arguments, c) ← readCounted (steps d) c
    return (TypeSig.generic (first == 0x11) name arguments, c)) (fun first => ?_) (fun _ => ⟨_, rfl⟩)
    fun _ _ _ _ => rfl
  exact consumes_reference.bind fun name => (consumes_counted h).bind fun arguments => .pure _

theorem consumes_modified (isRequired : Bool) (h : Consumes steps depth) :
    Consumes (fun d c => do
      let (modifier, c) ← Reading.reference resolve c
      let (type, c) ← steps d c
      return (TypeSig.modified isRequired modifier type, c)) depth :=
  consumes_reference.bind fun modifier => h.bind fun type => .pure (TypeSig.modified isRequired modifier type)

/-- A type takes its code and what the step that the code selects takes, at one level less. -/
theorem takes_of_code {branch : Nat → Step ε (TypeSig ν)} {first : UInt8} {offset : Int} {rest : Bytes}
    {x : TypeSig ν} {c' : Cursor} (hbranch : Consumes branch depth)
    (h : ∀ d offset rest, Reading.typeWithin resolve (d + 1) ⟨offset, first :: rest⟩ = branch d ⟨offset + 1, rest⟩)
    (hread : Reading.typeWithin resolve (depth + 1) ⟨offset, first :: rest⟩ = .ok (x, c')) :
    Takes (Reading.typeWithin resolve) x ⟨offset, first :: rest⟩ c' := by
  rw [h] at hread
  exact (hbranch _ x c' hread).cons fun d => ⟨d, Nat.le_refl d, h d⟩

theorem consumes_type : Consumes (Reading.typeWithin resolve) depth := by
  induction depth with
  | zero =>
    intro c x c' hread
    unfold Reading.typeWithin at hread
    contradiction
  | succ depth ih =>
    rintro ⟨offset, rest⟩ x c' hread
    cases rest with
    | nil =>
      unfold Reading.typeWithin at hread
      contradiction
    | cons first rest =>
      have hcode := hread
      unfold Reading.typeWithin at hcode
      dsimp only at hcode
      split at hcode
      · next type htype =>
        refine takes_of_code (.pure (.primitive type)) (fun d offset rest => ?_) hread
        unfold Reading.typeWithin
        simp only [htype]
        rfl
      -- One case for each element code, in the order of the reader.
      split at hcode
      all_goals rename_i hfirst
      · obtain rfl : first = 0x1F := UInt8.toNat_inj.1 hfirst
        exact takes_of_code (consumes_modified true ih) (fun _ _ _ => rfl) hread
      · obtain rfl : first = 0x20 := UInt8.toNat_inj.1 hfirst
        exact takes_of_code (consumes_modified false ih) (fun _ _ _ => rfl) hread
      · obtain rfl : first = 0x45 := UInt8.toNat_inj.1 hfirst
        exact takes_of_code (ih.map .pinned) (fun _ _ _ => rfl) hread
      · obtain rfl : first = 0x41 := UInt8.toNat_inj.1 hfirst
        exact takes_of_code (ih.map .sentinel) (fun _ _ _ => rfl) hread
      · obtain rfl : first = 0x0F := UInt8.toNat_inj.1 hfirst
        exact takes_of_code (ih.map .pointer) (fun _ _ _ => rfl) hread
      · obtain rfl : first = 0x10 := UInt8.toNat_inj.1 hfirst
        exact takes_of_code (ih.map .byRef) (fun _ _ _ => rfl) hread
      · obtain rfl : first = 0x11 := UInt8.toNat_inj.1 hfirst
        exact takes_of_code (consumes_reference.map (.named true)) (fun _ _ _ => rfl) hread
      · obtain rfl : first = 0x12 := UInt8.toNat_inj.1 hfirst
        exact takes_of_code (consumes_reference.map (.named false)) (fun _ _ _ => rfl) hread
      · obtain rfl : first = 0x13 := UInt8.toNat_inj.1 hfirst
        exact takes_of_code (consumes_number.map .typeVar) (fun _ _ _ => rfl) hread
      · obtain rfl : first = 0x1E := UInt8.toNat_inj.1 hfirst
        exact takes_of_code (consumes_number.map .methodVar) (fun _ _ _ => rfl) hread
      · obtain rfl : first = 0x1D := UInt8.toNat_inj.1 hfirst
        exact takes_of_code (ih.map .vector) (fun _ _ _ => rfl) hread
      · obtain rfl : first = 0x14 := UInt8.toNat_inj.1 hfirst
        exact takes_of_code (consumes_array ih) (fun _ _ _ => rfl) hread
      · obtain rfl : first = 0x15 := UInt8.toNat_inj.1 hfirst
        exact takes_of_code (consumes_generic ih) (fun _ _ _ => rfl) hread
      · obtain rfl : first = 0x1B := UInt8.toNat_inj.1 hfirst
        refine takes_of_code ((consumes_method ih).map fun m =>
          .function m.convention m.genericParameters m.result m.parameters) (fun _ _ _ => rfl) hread
      · contradiction

end

/-! ### Types that are read -/

/-- Where the bytes agree, what is left begins with the same bytes. -/
theorem drop_of_agreeing {blob other bs rest : Bytes} {start : Nat} (hdrop : blob.drop start = bs ++ rest)
    (h : ∀ i, start ≤ i → i < start + bs.length → other[i]? = blob[i]?) :
    other.drop start = bs ++ other.drop (start + bs.length) := by
  have htake : (other.drop start).take bs.length = bs := by
    refine List.ext_getElem? fun i => ?_
    by_cases hi : i < bs.length
    · rw [List.getElem?_take_of_lt hi, List.getElem?_drop, h (start + i) (by omega) (by omega), ← List.getElem?_drop,
        hdrop, List.getElem?_append_left hi]
    · rw [List.getElem?_eq_none (by rw [List.length_take]; omega), List.getElem?_eq_none (by omega)]
  conv => lhs; rw [← List.take_append_drop bs.length (other.drop start), htake, List.drop_drop]

section

variable {resolve : Metadata.Table → Nat → Except ε ν}

/-- What is read within some number of levels is read by all readers with as many levels as it has bytes. -/
theorem takes_readType {c c' : Cursor} {t : TypeSig ν} {depth : Nat}
    (h : readTypeWithin resolve depth c = .ok (t, c')) :
    ∃ bs, bs ≠ [] ∧ c.rest = bs ++ c'.rest ∧ c'.offset = c.offset + bs.length ∧
      ∀ offset rest, readType resolve ⟨offset, bs ++ rest⟩ = .ok (t, ⟨offset + bs.length, rest⟩) := by
  obtain ⟨bs, hrest, hoffset, hreads⟩ := consumes_type c t c' h
  refine ⟨bs, ?_, hrest, hoffset, fun offset rest => hreads _ ?_ offset rest⟩
  · -- Without a level nothing is read, but without a byte no level would be needed.
    rintro rfl
    have hnone := hreads 0 (Nat.le_refl 0) 0 []
    unfold Reading.typeWithin at hnone
    contradiction
  · dsimp only
    rw [List.length_append]
    omega

/-- The type `t` is read from one offset of a signature up to another.  Bytes elsewhere do not matter, and if one of
these is missing nothing is read. -/
structure Settled (resolve : Metadata.Table → Nat → Except ε ν) (blob : Bytes) (start stop : Nat) (t : TypeSig ν) :
    Prop where
  read : readType resolve (.at blob start) = .ok (t, .at blob stop)
  lt : start < stop
  le : stop ≤ blob.length
  agreeing (other : Bytes) : (∀ i, start ≤ i → i < stop → other[i]? = blob[i]?) →
    readType resolve (.at other start) = .ok (t, .at other stop)
  cut : ∀ n < stop, ∃ e, readType resolve (.at (blob.take n) start) = .error e

/-- The end does not lie behind the last byte. -/
theorem exists_stop {blob : Bytes} {start : Nat} {t : TypeSig ν} {c : Cursor}
    (h : readType resolve (.at blob start) = .ok (t, c)) :
    ∃ stop, start < stop ∧ stop ≤ blob.length ∧
      ∀ other : Bytes, (∀ i, start ≤ i → i < stop → other[i]? = blob[i]?) →
        readType resolve (.at other start) = .ok (t, .at other stop) := by
  obtain ⟨bs, hne, hdrop, -, hread⟩ := takes_readType h
  have hlength := congrArg List.length (show blob.drop start = bs ++ c.rest from hdrop)
  have hpos := List.length_pos_iff.2 hne
  rw [List.length_drop, List.length_append] at hlength
  refine ⟨start + bs.length, by omega, by omega, fun other hagree => ?_⟩
  rw [Cursor.at, drop_of_agreeing hdrop hagree, hread]
  rfl

theorem settled_of_readType {blob : Bytes} {start : Nat} {t : TypeSig ν} {c : Cursor}
    (h : readType resolve (.at blob start) = .ok (t, c)) : ∃ stop, Settled resolve blob start stop t := by
  obtain ⟨stop, hlt, hle, hagreeing⟩ := exists_stop h
  have hread := hagreeing blob fun _ _ _ => rfl
  refine ⟨stop, hread, hlt, hle, hagreeing, fun n hn => ?_⟩
  cases hcut : readType resolve (.at (blob.take n) start) with
  | error e => exact ⟨e, rfl⟩
  | ok result =>
    -- What the shorter signature gives, the longer one would give too, up to the same end.
    obtain ⟨stop', hlt', hle', hagreeing'⟩ := exists_stop hcut
    rw [List.length_take] at hle'
    have hwhole := hagreeing' blob fun i _ hi => (List.getElem?_take_of_lt (by omega)).symm
    rw [hread] at hwhole
    have hstop : (stop : Int) = stop' := congrArg (·.offset) (Prod.mk.inj (Except.ok.inj hwhole)).2
    omega

end

/-- A type is read and settled by its own bytes, or there is a flaw, or a reference to a type without a name.  That a
reader goes only so many levels deep as there are bytes makes no difference. -/
theorem readType_refused_or_settled (resolve : Metadata.Table → Nat → Except ε ν) (blob : Bytes) (start : Nat) :
    ((∃ flaw, readType resolve (.at blob start) = .error (.flaw flaw)) ∨
      (∃ table rid e, resolve table rid = .error e ∧ readType resolve (.at blob start) = .error (.unnamed e)) ∨
      ∃ t stop, Settled resolve blob start stop t) ∧
    ∀ depth t c, readTypeWithin resolve depth (.at blob start) = .ok (t, c) →
      readType resolve (.at blob start) = .ok (t, c) := by
  constructor
  · have hfails := readType_fails (P := fun e => ∃ table rid, resolve table rid = .error e)
      (fun table rid e he => ⟨table, rid, he⟩) (.at blob start)
    cases hread : readType resolve (.at blob start) with
    | error e =>
      cases e with
      | flaw flaw => exact .inl ⟨flaw, rfl⟩
      | unnamed e =>
        obtain ⟨table, rid, he⟩ : ∃ table rid, resolve table rid = .error e := hfails _ hread
        exact .inr (.inl ⟨table, rid, e, he, rfl⟩)
    | ok result => exact .inr (.inr ⟨result.1, settled_of_readType hread⟩)
  · intro depth t c h
    obtain ⟨bs, -, hdrop, hoffset, hread⟩ := takes_readType h
    have hwhole := hread start c.rest
    rw [← hdrop] at hwhole
    exact hwhole.trans (by rw [show (start : Int) + bs.length = c.offset from hoffset.symm])

/-- The byte that is skipped is missing here. -/
example : readType (Total fun _ _ => "T" : _ → _ → Except Empty String) (.at [0x15] 0) =
    .error (.flaw (.truncated 2)) :=
  rfl

end CilProbe.Signature
