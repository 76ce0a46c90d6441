import CilProbe.Proofs.Signature.Writer
import CilProbe.Signature.Reader

/-!
# Reading signatures that were written

Each step of the reader takes the bytes of what it reads and goes on behind them, whatever follows (`Reads`); the steps
for the parts make up the step for the whole.

* A method signature is read if its types are: `reads_method`.
* A type is read within as many levels as it has bytes: `reads_type`, by induction over types.
* A written type is read from any place with its name and the place behind it, and a written method signature with all
  of its parts: `read_written_signatures`.
-/

namespace CilProbe.Signature

variable {ε α β ν : Type}

/-! ### Steps -/

/-- A step reads bytes as a value, wherever they stand and whatever follows, and goes on behind them. -/
def Reads (step : Step ε α) (bs : Bytes) (x : α) : Prop :=
  ∀ (offset : Int) (rest : Bytes), step ⟨offset, bs ++ rest⟩ = .ok (x, ⟨offset + bs.length, rest⟩)

namespace Reads

variable {step : Step ε α} {as bs : Bytes} {x : α}

theorem pure (x : α) : Reads (fun c => Pure.pure (x, c) : Step ε α) [] x := by
  intro offset rest
  rw [List.nil_append, List.length_nil, Int.natCast_zero, Int.add_zero]
  rfl

theorem bind (next : α → Step ε β) {y : β} (hx : Reads step as x) (hy : Reads (next x) bs y) :
    Reads (fun c => step c >>= fun p => next p.1 p.2) (as ++ bs) y := by
  intro offset rest
  rw [List.append_assoc, List.length_append, Int.natCast_add, ← Int.add_assoc]
  dsimp only
  rw [hx offset (bs ++ rest)]
  exact hy (offset + as.length) rest

theorem map (f : α → β) (hx : Reads step bs x) :
    Reads (fun c => step c >>= fun p => Pure.pure (f p.1, p.2)) bs (f x) := by
  have h := hx.bind (fun a c => Pure.pure (f a, c)) (Reads.pure (f x))
  rwa [List.append_nil] at h

/-- A first byte that selects the step for the bytes behind it. -/
theorem cons {next : Step ε α} {first : UInt8} (hnext : Reads next bs x)
    (h : ∀ offset rest, step ⟨offset, first :: rest⟩ = next ⟨offset + 1, rest⟩) : Reads step (first :: bs) x := by
  intro offset rest
  rw [List.cons_append, h, hnext (offset + 1) rest, List.length_cons, Int.natCast_succ, Int.add_assoc, Int.add_comm 1]

end Reads

theorem reads_number {n : Nat} (h : n < 2 ^ 29) : Reads (readNumber : Step ε Nat) (Compressed.encode n) n := by
  intro offset rest
  rw [readNumber]
  simp only [Compressed.read?_encode h rest]
  simp only [Cursor.skip, List.drop_left]
  rfl

theorem reads_times {γ : Type} {step : Step ε α} {bytes : γ → Bytes} {value : γ → α} {xs : List γ}
    (h : ∀ x ∈ xs, Reads step (bytes x) (value x)) :
    Reads (readTimes step xs.length) (xs.flatMap bytes) (xs.map value) := by
  induction xs with
  | nil => exact Reads.pure []
  | cons x xs ih =>
    have hrest := ih fun y hy => h y (by simp [hy])
    exact (h x (by simp)).bind (fun a c => readTimes step xs.length c >>= fun p => pure (a :: p.1, p.2))
      (hrest.map fun l => value x :: l)

theorem reads_counted {γ : Type} {step : Step ε α} {bytes : γ → Bytes} {value : γ → α} {xs : List γ}
    (hcount : xs.length < 2 ^ 29) (h : ∀ x ∈ xs, Reads step (bytes x) (value x)) :
    Reads (readCounted step) (Compressed.encode xs.length ++ xs.flatMap bytes) (xs.map value) :=
  (reads_number hcount).bind (fun count c => readTimes step count c) (reads_times h)

theorem reads_numbers {numbers : List Nat} (h : NumbersFit numbers) :
    Reads (readCounted readNumber : Step ε (List Nat)) (numbersToBytes numbers) numbers := by
  have hnumber : ∀ n ∈ numbers, Reads (readNumber : Step ε Nat) (Compressed.encode n) (id n) :=
    fun n hn => reads_number (h.2 n hn)
  have hnumbers := reads_counted h.1 hnumber
  rwa [List.map_id] at hnumbers

/-! ### References -/

variable {resolve : Metadata.Table → Nat → Except ε ν} {f : TypeRow → ν}

theorem reads_reference {row : TypeRow} (h : row.Fits) (hname : resolve row.table row.rid = .ok (f row)) :
    Reads (readReference resolve) row.toBytes (f row) := by
  obtain ⟨hmem, hrid⟩ := h
  have hlt := List.idxOf_lt_length_of_mem hmem
  have htag : Metadata.CodedIndex.typeDefOrRef.tables[Metadata.CodedIndex.typeDefOrRef.tables.idxOf row.table]? =
      some row.table := by rw [List.getElem?_eq_getElem hlt, List.getElem_idxOf hlt]
  have hvalue : Metadata.CodedIndex.typeDefOrRef.encode (Metadata.CodedIndex.typeDefOrRef.tables.idxOf row.table)
      row.rid < 2 ^ 29 := by
    have hlength : Metadata.CodedIndex.typeDefOrRef.tables.length = 3 := rfl
    have hbits : Metadata.CodedIndex.typeDefOrRef.bits = 2 := rfl
    rw [Metadata.CodedIndex.encode, hbits]
    omega
  intro offset rest
  rw [readReference, Reading.reference, TypeRow.toBytes, reads_number hvalue offset rest]
  simp only [bind, Except.bind, Metadata.CodedIndex.decode?_encode htag, orUnnamed, hname]
  rfl

/-! ### Method signatures -/

/-- What stands behind the convention of a method signature. -/
def readParts (step : Step ε (TypeSig ν)) (convention genericParameters : Nat) : Step ε (MethodSig ν) := fun c => do
  let (count, c) ← readNumber c
  let (result, c) ← step c
  let (parameters, c) ← readTimes step count c
  return (⟨convention, genericParameters, result, parameters⟩, c)

theorem reads_parts {step : Step ε (TypeSig ν)} {m : MethodSig TypeRow} {f : TypeRow → ν}
    (hcount : m.parameters.length < 2 ^ 29) (hresult : Reads step m.result.toBytes (m.result.map f))
    (hparameters : ∀ t ∈ m.parameters, Reads step t.toBytes (t.map f)) :
    Reads (readParts step m.convention m.genericParameters)
      (Compressed.encode m.parameters.length ++ (m.result.toBytes ++ TypeSig.allToBytes m.parameters)) (m.map f) := by
  have hcount := reads_number (ε := ε) hcount
  have hlist := reads_times hparameters
  rw [← TypeSig.allToBytes_eq, ← TypeSig.mapAll_eq] at hlist
  intro offset rest
  simp only [readParts, List.append_assoc, hcount _ _, hresult _ _, hlist _ _, bind, Except.bind, pure, Except.pure,
    List.length_append, Int.natCast_add, Int.add_assoc, MethodSig.map]

/-- A method signature is read if its types are. -/
theorem reads_method {step : Step ε (TypeSig ν)} {m : MethodSig TypeRow} {f : TypeRow → ν} (h : m.Fits)
    (hresult : Reads step m.result.toBytes (m.result.map f))
    (hparameters : ∀ t ∈ m.parameters, Reads step t.toBytes (t.map f)) :
    Reads (readMethodWith step) m.toBytes (m.map f) := by
  obtain ⟨⟨hconvention, hgeneric⟩, hcount, -, -⟩ := h
  have hfirst : (UInt8.ofNat m.convention).toNat = m.convention := by
    rw [UInt8.toNat_ofNat', Nat.mod_eq_of_lt hconvention]
  have hparts := reads_parts hcount hresult hparameters
  rw [MethodSig.toBytes, conventionToBytes, List.cons_append]
  split at hgeneric
  · next hflag =>
    rw [if_pos hflag]
    refine ((reads_number hgeneric).bind (readParts step m.convention) hparts).cons fun offset rest => ?_
    rw [readMethodWith]
    simp only [hfirst, if_pos hflag]
    rfl
  · next hflag =>
    rw [if_neg hflag, List.nil_append]
    refine hparts.cons fun offset rest => ?_
    rw [readMethodWith]
    simp only [hfirst, if_neg hflag, hgeneric]
    rfl

/-! ### Types -/

theorem reads_array {step : Step ε (TypeSig ν)} {bs : Bytes} {element : TypeSig ν} {rank : Nat}
    {sizes lowerBounds : List Nat} (helement : Reads step bs element) (hrank : rank < 2 ^ 29)
    (hsizes : NumbersFit sizes) (hlowerBounds : NumbersFit lowerBounds) :
    Reads (fun c => do
      let (element, c) ← step c
      let (rank, c) ← readNumber c
      let (sizes, c) ← readCounted readNumber c
      let (lowerBounds, c) ← readCounted readNumber c
      return (TypeSig.array element rank sizes lowerBounds, c))
      (bs ++ (Compressed.encode rank ++ (numbersToBytes sizes ++ numbersToBytes lowerBounds)))
      (TypeSig.array element rank sizes lowerBounds) := by
  have hrank := reads_number (ε := ε) hrank
  have hsizes := reads_numbers (ε := ε) hsizes
  have hlowerBounds := reads_numbers (ε := ε) hlowerBounds
  intro offset rest
  simp only [List.append_assoc, helement _ _, hrank _ _, hsizes _ _, hlowerBounds _ _, bind, Except.bind, pure,
    Except.pure, List.length_append, Int.natCast_add, Int.add_assoc]

theorem reads_generic {step : Step ε (TypeSig ν)} (isValueType : Bool) {row : TypeRow}
    {arguments : List (TypeSig TypeRow)} (hrow : row.Fits) (hname : resolve row.table row.rid = .ok (f row))
    (hcount : arguments.length < 2 ^ 29) (harguments : ∀ t ∈ arguments, Reads step t.toBytes (t.map f)) :
    Reads (fun c => do
      let isValueType := c.rest.head? == some 0x11
      let (name, c) ← readReference resolve (c.skip 1)
      let (arguments, c) ← readCounted step c
      return (.generic isValueType name arguments, c))
      (kindCode isValueType :: (row.toBytes ++
        (Compressed.encode arguments.length ++ TypeSig.allToBytes arguments)))
      ((TypeSig.generic isValueType row arguments).map f) := by
  have hrow := reads_reference hrow hname
  have hlist := reads_counted hcount harguments
  rw [← TypeSig.allToBytes_eq, ← TypeSig.mapAll_eq] at hlist
  have hnext := hrow.bind
    (fun name c => readCounted step c >>= fun p => pure (TypeSig.generic isValueType name p.1, p.2))
    (hlist.map (TypeSig.generic isValueType (f row)))
  refine hnext.cons fun offset rest => ?_
  cases isValueType <;> rfl

theorem reads_modified {step : Step ε (TypeSig ν)} (isRequired : Bool) {row : TypeRow} {bs : Bytes}
    {type : TypeSig ν} (hrow : row.Fits) (hname : resolve row.table row.rid = .ok (f row))
    (htype : Reads step bs type) :
    Reads (fun c => do
      let (modifier, c) ← readReference resolve c
      let (type, c) ← step c
      return (TypeSig.modified isRequired modifier type, c))
      (row.toBytes ++ bs) (TypeSig.modified isRequired (f row) type) :=
  (reads_reference hrow hname).bind (fun modifier c => step c >>= fun p =>
      pure (TypeSig.modified isRequired modifier p.1, p.2))
    (htype.map (TypeSig.modified isRequired (f row)))

/-- A type is read by the step that its code selects, at one level less. -/
theorem reads_of_code {step : Nat → Step ε (TypeSig ν)} {first : UInt8} {bs : Bytes} {x : TypeSig ν} {depth : Nat}
    (hdepth : (first :: bs).length ≤ depth) (hstep : ∀ d, bs.length ≤ d → Reads (step d) bs x)
    (h : ∀ d offset rest, readTypeWithin resolve (d + 1) ⟨offset, first :: rest⟩ = step d ⟨offset + 1, rest⟩) :
    Reads (readTypeWithin resolve depth) (first :: bs) x := by
  rw [List.length_cons] at hdepth
  obtain ⟨d, rfl⟩ : ∃ d, depth = d + 1 := ⟨depth - 1, by omega⟩
  exact (hstep d (by omega)).cons (h d)

theorem length_toBytes_le {t : TypeSig TypeRow} {ts : List (TypeSig TypeRow)} (h : t ∈ ts) :
    t.toBytes.length ≤ (TypeSig.allToBytes ts).length := by
  rw [TypeSig.allToBytes_eq]
  exact (List.sublist_flatten_of_mem (List.mem_map_of_mem h)).length_le

theorem MethodSig.length_result_le (m : MethodSig TypeRow) : m.result.toBytes.length ≤ m.toBytes.length := by
  simp only [toBytes, List.length_append]
  omega

theorem MethodSig.length_parameter_le (m : MethodSig TypeRow) {t : TypeSig TypeRow} (h : t ∈ m.parameters) :
    t.toBytes.length ≤ m.toBytes.length := by
  have hlength := length_toBytes_le h
  simp only [toBytes, List.length_append]
  omega

/-- A type is read within as many levels as it has bytes, with the names of the rows that stand in it. -/
theorem reads_named (t : TypeSig TypeRow) (h : t.Fits)
    (hname : ∀ row ∈ t.references, resolve row.table row.rid = .ok (f row)) (depth : Nat)
    (hdepth : t.toBytes.length ≤ depth) : Reads (readTypeWithin resolve depth) t.toBytes (t.map f) := by
  -- The depth stays general: a member takes fewer bytes than the whole, and is read with one level less.
  induction t using TypeSig.inductionOn generalizing depth with
  | primitive type =>
    cases type <;>
      exact reads_of_code hdepth (fun _ _ => Reads.pure (TypeSig.primitive _)) (fun _ _ _ => rfl)
  | pointer target ih =>
    exact reads_of_code hdepth (fun d hd => (ih h hname d hd).map TypeSig.pointer) (fun _ _ _ => rfl)
  | byRef target ih =>
    exact reads_of_code hdepth (fun d hd => (ih h hname d hd).map TypeSig.byRef) (fun _ _ _ => rfl)
  | named isValueType row =>
    have hrow := hname row (List.mem_singleton.2 rfl)
    cases isValueType <;>
      exact reads_of_code hdepth (fun _ _ => (reads_reference h hrow).map (TypeSig.named _)) (fun _ _ _ => rfl)
  | typeVar number =>
    exact reads_of_code hdepth (fun _ _ => (reads_number h).map TypeSig.typeVar) (fun _ _ _ => rfl)
  | methodVar number =>
    exact reads_of_code hdepth (fun _ _ => (reads_number h).map TypeSig.methodVar) (fun _ _ _ => rfl)
  | vector element ih =>
    exact reads_of_code hdepth (fun d hd => (ih h hname d hd).map TypeSig.vector) (fun _ _ _ => rfl)
  | array element rank sizes lowerBounds ih =>
    obtain ⟨helement, hrank, hsizes, hlowerBounds⟩ := h
    refine reads_of_code hdepth (fun d hd => reads_array (ih helement hname d ?_) hrank hsizes hlowerBounds)
      (fun _ _ _ => rfl)
    rw [List.length_append] at hd
    omega
  | generic isValueType row arguments ih =>
    obtain ⟨hrow, hcount, harguments⟩ := h
    obtain ⟨hname, hnames⟩ := List.forall_mem_cons.1 hname
    refine reads_of_code hdepth (fun d hd => reads_generic isValueType hrow hname hcount fun t ht =>
      ih t ht (TypeSig.allFit_iff.mp harguments t ht)
        (fun row hrow => hnames row (TypeSig.mem_allReferences.2 ⟨t, ht, hrow⟩)) d ?_) (fun _ _ _ => rfl)
    have hlength := length_toBytes_le ht
    simp only [List.length_cons, List.length_append] at hd
    omega
  | function convention genericParameters result parameters ihresult ihparameters =>
    let m : MethodSig TypeRow := ⟨convention, genericParameters, result, parameters⟩
    have hfits : m.Fits := h
    have hparameters := TypeSig.allFit_iff.mp hfits.2.2.2
    obtain ⟨hresultName, hparameterNames⟩ := List.forall_mem_append.1 hname
    have hmethod (d : Nat) (hd : m.toBytes.length ≤ d) :
        Reads (readMethodWith (readTypeWithin resolve d)) m.toBytes (m.map f) :=
      reads_method hfits (ihresult hfits.2.2.1 hresultName d (Nat.le_trans m.length_result_le hd)) fun t ht =>
        ihparameters t ht (hparameters t ht)
          (fun row hrow => hparameterNames row (TypeSig.mem_allReferences.2 ⟨t, ht, hrow⟩)) d
          (Nat.le_trans (m.length_parameter_le ht) hd)
    exact reads_of_code hdepth (fun d hd => (hmethod d hd).map
      fun m => TypeSig.function m.convention m.genericParameters m.result m.parameters) (fun _ _ _ => rfl)
  | modified isRequired row type ih =>
    obtain ⟨hrow, hnames⟩ := List.forall_mem_cons.1 hname
    have hlength (d : Nat) (hd : (row.toBytes ++ type.toBytes).length ≤ d) : type.toBytes.length ≤ d := by
      rw [List.length_append] at hd
      omega
    cases isRequired <;>
      exact reads_of_code hdepth (fun d hd => reads_modified _ h.1 hrow (ih h.2 hnames d (hlength d hd)))
        (fun _ _ _ => rfl)
  | pinned type ih =>
    exact reads_of_code hdepth (fun d hd => (ih h hname d hd).map TypeSig.pinned) (fun _ _ _ => rfl)
  | sentinel type ih =>
    exact reads_of_code hdepth (fun d hd => (ih h hname d hd).map TypeSig.sentinel) (fun _ _ _ => rfl)

/-- A method signature is read from its first byte, whatever stands behind it. -/
theorem readMethod_toBytes {m : MethodSig TypeRow} (h : m.Fits)
    (hname : ∀ row ∈ m.references, resolve row.table row.rid = .ok (f row)) (rest : Bytes) :
    readMethod resolve (.at (m.toBytes ++ rest) 0) = .ok (m.map f, ⟨0 + m.toBytes.length, rest⟩) := by
  have hdepth : m.toBytes.length ≤ (m.toBytes ++ rest).length + 1 := by
    rw [List.length_append]
    omega
  have hfits := TypeSig.allFit_iff.mp h.2.2.2
  obtain ⟨hresult, hparameters⟩ := List.forall_mem_append.1 hname
  rw [readMethod, Cursor.at, List.drop_zero]
  refine reads_method h (reads_named m.result h.2.2.1 hresult _ (Nat.le_trans m.length_result_le hdepth))
    (fun t ht => reads_named t (hfits t ht) ?_ _ (Nat.le_trans (m.length_parameter_le ht) hdepth)) 0 rest
  exact fun row hrow => hparameters row (TypeSig.mem_allReferences.2 ⟨t, ht, hrow⟩)

/-- The type arguments of a method are read, whatever stands behind them. -/
theorem readInstantiation_toBytes {arguments : List (TypeSig TypeRow)} (hcount : arguments.length < 2 ^ 29)
    (h : TypeSig.AllFit arguments)
    (hname : ∀ row ∈ TypeSig.allReferences arguments, resolve row.table row.rid = .ok (f row)) (rest : Bytes) :
    readInstantiation resolve (TypeSig.instantiationToBytes arguments ++ rest) =
      .ok (arguments.map (TypeSig.map f)) := by
  have hreads (depth : Nat) (hdepth : (TypeSig.allToBytes arguments).length ≤ depth) :=
    reads_counted hcount fun t ht => reads_named t (TypeSig.allFit_iff.mp h t ht)
      (fun row hrow => hname row (TypeSig.mem_allReferences.2 ⟨t, ht, hrow⟩)) depth
      (Nat.le_trans (length_toBytes_le ht) hdepth)
  rw [TypeSig.instantiationToBytes, List.cons_append, readInstantiation, Cursor.at, List.drop_one, List.tail_cons,
    TypeSig.allToBytes_eq, hreads _ ?_]
  · rfl
  · simp only [TypeSig.allToBytes_eq, List.length_cons, List.length_append]
    omega

/-- Every row has a name. -/
def Total (name : Metadata.Table → Nat → ν) : Metadata.Table → Nat → Except ε ν := fun table rid => .ok (name table rid)

/-- A type is read within as many levels as it has bytes. -/
theorem reads_type {name : Metadata.Table → Nat → ν} (t : TypeSig TypeRow) (h : t.Fits) (depth : Nat)
    (hdepth : t.toBytes.length ≤ depth) :
    Reads (readTypeWithin (Total name) depth : Step ε (TypeSig ν)) t.toBytes
      (t.map fun row => name row.table row.rid) :=
  reads_named t h (fun _ _ => rfl) depth hdepth

/-! ### Names -/

/-- The name of a type whose references have names. -/
def TypeSig.nameWith (name : Metadata.Table → Nat → String) (t : TypeSig TypeRow) : String :=
  (t.map fun row => name row.table row.rid).render

theorem read_written_signatures (name : Metadata.Table → Nat → String) :
    (∀ t : TypeSig TypeRow, t.Fits → ∀ front rest : Bytes,
      (readType (Total name : _ → _ → Except ε String) (.at (front ++ t.toBytes ++ rest) front.length)).map
          (fun p => (p.1.render, p.2.offset)) =
        .ok (t.nameWith name, ((front.length + t.toBytes.length : Nat) : Int))) ∧
    ∀ m : MethodSig TypeRow, m.Fits → ∀ rest : Bytes,
      (readMethod (Total name : _ → _ → Except ε String) (.at (m.toBytes ++ rest) 0)).map
          (fun p => (p.1.hasThis, p.1.genericParameters, p.1.convention, p.1.result.render,
            TypeSig.renderAll p.1.parameters)) =
        .ok (m.hasThis, m.genericParameters, m.convention, m.result.nameWith name,
          m.parameters.map (TypeSig.nameWith name)) := by
  constructor
  · intro t h front rest
    have hdepth : t.toBytes.length ≤ (t.toBytes ++ rest).length + 1 := by
      rw [List.length_append]
      omega
    rw [readType, Cursor.at, List.append_assoc, List.drop_left, reads_type t h _ hdepth]
    rfl
  · intro m h rest
    have hdepth : m.toBytes.length ≤ (m.toBytes ++ rest).length + 1 := by
      rw [List.length_append]
      omega
    have hparameters := TypeSig.allFit_iff.mp h.2.2.2
    rw [readMethod, Cursor.at, List.drop_zero,
      reads_method h (reads_type m.result h.2.2.1 _ (Nat.le_trans m.length_result_le hdepth)) fun t ht =>
        reads_type t (hparameters t ht) _ (Nat.le_trans (m.length_parameter_le ht) hdepth)]
    simp only [Except.map, MethodSig.map, MethodSig.hasThis, TypeSig.renderAll_eq, TypeSig.mapAll_eq, List.map_map]
    rfl

/-- A method of variable arguments with a type parameter. -/
def variadic : MethodSig TypeRow where
  convention := 0x35
  genericParameters := 1
  result := .generic false ⟨.typeRef, 70⟩
    [.methodVar 0, .function 0x00 0 (.primitive .void) [.pointer (.primitive .void)]]
  parameters :=
    [.modified true ⟨.typeSpec, 5000⟩ (.byRef (.vector (.primitive .string))),
      .sentinel (.array (.named true ⟨.typeDef, 2⟩) 3 [200, 20000] [0, 1])]

private theorem fits_variadic : variadic.Fits := by
  simp [variadic, MethodSig.Fits, TypeSig.Fits, TypeSig.AllFit, ConventionFits, NumbersFit, TypeRow.Fits,
    MethodSig.isGeneric, MethodSig.genericFlag]
  decide

theorem read_written_signatures_variadic :
    variadic.Fits ∧ variadic.result.Fits ∧
    (readType (Total fun table rid => table.name ++ toString rid : _ → _ → Except Empty String)
        (.at ([0x01, 0x02] ++ variadic.result.toBytes ++ [0xFF]) 2)).map (fun p => (p.1.render, p.2.offset)) =
      .ok ("TypeRef70<!!0,method System.Void *(System.Void*)>", 15) ∧
    (readMethod (Total fun table rid => table.name ++ toString rid : _ → _ → Except Empty String)
        (.at (variadic.toBytes ++ [0xFF]) 0)).map
          (fun p => (p.1.hasThis, p.1.genericParameters, p.1.convention, p.1.result.render,
            TypeSig.renderAll p.1.parameters)) =
      .ok (true, 1, 0x35, "TypeRef70<!!0,method System.Void *(System.Void*)>",
        ["System.String[]&", "TypeDef2[,,]"]) := by
  have hresult : variadic.result.Fits := fits_variadic.2.2.1
  obtain ⟨htype, hmethod⟩ := read_written_signatures fun table rid => table.name ++ toString rid
  refine ⟨fits_variadic, hresult, (htype variadic.result hresult [0x01, 0x02] [0xFF]).trans ?_,
    (hmethod variadic fits_variadic [0xFF]).trans ?_⟩
  · congr 1
  · congr 1

end CilProbe.Signature
