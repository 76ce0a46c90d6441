import CilProbe.Code.Body
import Mathlib.Data.List.Basic

/-!
# Method bodies that are written and read

How headers are stored (`MethodHeader.toBytes`), and that a header is read exactly from bytes that begin with it
(`MethodHeader.read_eq_ok_iff`).  What lies between the fields of a fat header and the code is not looked at.  So a body
that was written is read, and a body is refused only if it has no header (`MethodHeader.Bad`) or not all of its code
(`read_written_bodies`).
-/

namespace CilProbe

namespace MethodHeader

/-! ### Headers -/

/-- The fields of a header as they are stored. -/
def toBytes (h : MethodHeader) : Bytes :=
  if h.isFat then
    Bytes.toLittleEndian 2 (h.headerSize / 4 * 2 ^ 12 + h.flags) ++ (Bytes.toLittleEndian 2 h.maxStack ++
      (Bytes.toLittleEndian 4 h.codeSize ++ Bytes.toLittleEndian 4 h.localVarSigToken))
  else [UInt8.ofNat (h.codeSize * 4 + 2)]

/-- The headers that can be stored.  The flags of a fat one end in its format. -/
inductive Fits : MethodHeader → Prop where
  | tiny {codeSize : Nat} (hcode : codeSize < 64) : Fits { isFat := false, headerSize := 1, codeSize }
  | fat {words codeSize maxStack flags localVarSigToken : Nat} (hwords : 3 ≤ words ∧ words ≤ 15)
      (hcode : codeSize < 2 ^ 32) (hstack : maxStack < 2 ^ 16) (hflags : flags < 2 ^ 12) (hformat : flags % 8 = 3)
      (htoken : localVarSigToken < 2 ^ 32) :
      Fits { isFat := true, headerSize := words * 4, codeSize, maxStack, flags, localVarSigToken }

variable {h : MethodHeader} {data : Bytes}

theorem length_toBytes (h : MethodHeader) : h.toBytes.length = if h.isFat then fatSize else 1 := by
  rw [toBytes]
  split
  · simp only [List.length_append, Bytes.length_toLittleEndian]
    rfl
  · rfl

theorem length_toBytes_le (h : MethodHeader) : h.toBytes.length ≤ fatSize := by
  rw [length_toBytes]
  split
  · exact Nat.le_refl _
  · decide

theorem Fits.length_toBytes_le (hfits : h.Fits) : h.toBytes.length ≤ h.headerSize := by
  rw [length_toBytes]
  cases hfits with
  | tiny => exact Nat.le_refl 1
  | fat hwords =>
    change fatSize ≤ _ * 4
    rw [fatSize]
    omega

theorem Fits.headerSize_pos (hfits : h.Fits) : 0 < h.headerSize := by
  cases hfits with
  | tiny => exact Nat.one_pos
  | fat hwords =>
    change 0 < _ * 4
    omega

/-! ### Reading headers -/

/-- The header that fields say which stand behind flags. -/
private def ofFields (flags : Nat) (fields : Bytes) : MethodHeader where
  isFat := true
  headerSize := flags / 2 ^ 12 * 4
  codeSize := Bytes.ofLittleEndian ((fields.drop 2).take 4)
  maxStack := Bytes.ofLittleEndian (fields.take 2)
  flags := flags % 2 ^ 12
  localVarSigToken := Bytes.ofLittleEndian ((fields.drop 6).take 4)

private theorem read_tiny {first : UInt8} (hformat : first.toNat % 4 = 2) (rest : Bytes) :
    read (first :: rest) = .ok { isFat := false, headerSize := 1, codeSize := first.toNat / 4 } := by
  unfold read
  obtain h2 | h6 : first.toNat % 8 = 2 ∨ first.toNat % 8 = 6 := by omega
  · simp only [h2]
  · simp only [h6]

private theorem read_fat {first second : UInt8} {rest : Bytes} (hformat : first.toNat % 8 = 3)
    (hrest : 10 ≤ rest.length) (hsize : fatSize ≤ (first.toNat + 256 * second.toNat) / 2 ^ 12 * 4) :
    read (first :: second :: rest) = .ok (ofFields (first.toNat + 256 * second.toNat) rest) := by
  unfold read
  simp only [hformat]
  rw [if_neg (by omega), if_neg (by omega), if_neg (by omega), if_neg (by omega)]
  rfl

/-- What a header that is read can be. -/
private theorem cases_of_read (hread : read data = .ok h) :
    (∃ first rest, data = first :: rest ∧ first.toNat % 4 = 2 ∧
      h = { isFat := false, headerSize := 1, codeSize := first.toNat / 4 }) ∨
    ∃ first second rest, data = first :: second :: rest ∧ first.toNat % 8 = 3 ∧ 10 ≤ rest.length ∧
      fatSize ≤ (first.toNat + 256 * second.toNat) / 2 ^ 12 * 4 ∧
      h = ofFields (first.toNat + 256 * second.toNat) rest := by
  unfold read at hread
  split at hread
  · contradiction
  next first rest =>
  split at hread
  · next hformat =>
    cases hread
    exact .inl ⟨first, rest, rfl, by omega, rfl⟩
  · next hformat =>
    cases hread
    exact .inl ⟨first, rest, rfl, by omega, rfl⟩
  · next hformat =>
    split at hread
    · contradiction
    next second rest =>
    dsimp only at hread
    -- The fields are looked for one after the other; the last one is there if all are.
    repeat' split at hread
    all_goals cases hread
    next hrest hsize => exact .inr ⟨first, second, rest, rfl, hformat, by omega, by omega, rfl⟩
  · contradiction

/-- The fields of a fat header are stored as they were. -/
private theorem toBytes_ofFields {first second : UInt8} {rest : Bytes} (hrest : 10 ≤ rest.length) :
    (ofFields (first.toNat + 256 * second.toNat) rest).toBytes = first :: second :: rest.take 10 := by
  have hfield (start count : Nat) (hle : start + count ≤ rest.length) :
      Bytes.toLittleEndian count (Bytes.ofLittleEndian ((rest.drop start).take count)) =
        (rest.drop start).take count := by
    have hlength : ((rest.drop start).take count).length = count := by
      rw [List.length_take, List.length_drop]
      omega
    have hread := Bytes.toLittleEndian_ofLittleEndian ((rest.drop start).take count)
    rwa [hlength] at hread
  have hflags : Bytes.toLittleEndian 2 (first.toNat + 256 * second.toNat) = [first, second] :=
    Bytes.toLittleEndian_ofLittleEndian [first, second]
  have hstack := hfield 0 2 (by omega)
  rw [List.drop_zero] at hstack
  rw [toBytes, if_pos (show (ofFields _ rest).isFat = true from rfl), ofFields]
  dsimp only
  rw [Nat.mul_div_cancel _ (by decide : 0 < 4), Nat.div_add_mod', hflags, hstack, hfield 2 4 (by omega),
    hfield 6 4 (by omega), ← List.drop_drop (i := 4), ← List.take_add, ← List.take_add]
  rfl

theorem fits_of_read (hread : read data = .ok h) : h.Fits := by
  obtain ⟨first, rest, rfl, hformat, rfl⟩ | ⟨first, second, rest, rfl, hformat, hrest, hsize, rfl⟩ :=
    cases_of_read hread
  · have hbyte := first.toNat_lt
    exact .tiny (by omega)
  · have hbyte := first.toNat_lt
    have hbyte' := second.toNat_lt
    have hfield (fields : Bytes) (count : Nat) : Bytes.ofLittleEndian (fields.take count) < 256 ^ count :=
      Nat.lt_of_lt_of_le (Bytes.ofLittleEndian_lt _)
        (Nat.pow_le_pow_right (by decide) (List.length_take_le count fields))
    rw [fatSize] at hsize
    exact .fat ⟨by omega, by omega⟩ (hfield _ 4) (hfield _ 2) (by omega) (by omega) (hfield _ 4)

theorem isPrefix_of_read (hread : read data = .ok h) : h.toBytes <+: data := by
  obtain ⟨first, rest, rfl, hformat, rfl⟩ | ⟨first, second, rest, rfl, hformat, hrest, hsize, rfl⟩ :=
    cases_of_read hread
  · have hbyte : UInt8.ofNat (first.toNat / 4 * 4 + 2) = first := by
      rw [show first.toNat / 4 * 4 + 2 = first.toNat by omega, UInt8.ofNat_toNat]
    exact ⟨rest, congrArg (· :: rest) hbyte⟩
  · rw [toBytes_ofFields hrest]
    exact ⟨rest.drop 10, congrArg (first :: second :: ·) (List.take_append_drop 10 rest)⟩

/-- Flags that were stored are read, and the fields behind them. -/
private theorem read_flags {flags : Nat} {fields : Bytes} (hflags : flags < 2 ^ 16) (hformat : flags % 8 = 3)
    (hsize : fatSize ≤ flags / 2 ^ 12 * 4) (hfields : 10 ≤ fields.length) :
    read (Bytes.toLittleEndian 2 flags ++ fields) = .ok (ofFields flags fields) := by
  have hbytes : Bytes.toLittleEndian 2 flags = [UInt8.ofNat (flags % 256), UInt8.ofNat (flags / 256 % 256)] := rfl
  have hfirst : (UInt8.ofNat (flags % 256)).toNat = flags % 256 := by
    rw [UInt8.toNat_ofNat', Nat.mod_eq_of_lt (by omega)]
  have hsecond : (UInt8.ofNat (flags / 256 % 256)).toNat = flags / 256 := by
    rw [UInt8.toNat_ofNat', Nat.mod_eq_of_lt (by omega), Nat.mod_eq_of_lt (by omega)]
  have hsum : flags % 256 + 256 * (flags / 256) = flags := by omega
  rw [hbytes, List.cons_append, List.singleton_append, read_fat (by rw [hfirst]; omega) hfields, hfirst, hsecond, hsum]
  rwa [hfirst, hsecond, hsum]

/-- Fields are read as they were stored. -/
private theorem ofFields_append {flags maxStack codeSize localVarSigToken : Nat} (hstack : maxStack < 2 ^ 16)
    (hcode : codeSize < 2 ^ 32) (htoken : localVarSigToken < 2 ^ 32) (rest : Bytes) :
    ofFields flags (Bytes.toLittleEndian 2 maxStack ++ (Bytes.toLittleEndian 4 codeSize ++
        (Bytes.toLittleEndian 4 localVarSigToken ++ rest))) =
      { isFat := true, headerSize := flags / 2 ^ 12 * 4, codeSize, maxStack, flags := flags % 2 ^ 12,
        localVarSigToken } := by
  have hread {width n : Nat} (hn : n < 256 ^ width) (rest : Bytes) :
      Bytes.ofLittleEndian ((Bytes.toLittleEndian width n ++ rest).take width) = n := by
    rw [List.take_left' (Bytes.length_toLittleEndian width n), Bytes.ofLittleEndian_toLittleEndian, Nat.mod_eq_of_lt hn]
  have hdrop {width n : Nat} (rest : Bytes) : (Bytes.toLittleEndian width n ++ rest).drop width = rest :=
    List.drop_left' (Bytes.length_toLittleEndian width n)
  rw [ofFields, hread hstack, ← List.drop_drop (i := 4), hdrop, hdrop, hread hcode, hread htoken]

theorem read_toBytes (hfits : h.Fits) (rest : Bytes) : read (h.toBytes ++ rest) = .ok h := by
  cases hfits with
  | @tiny codeSize hcode =>
    have hbyte : (UInt8.ofNat (codeSize * 4 + 2)).toNat = codeSize * 4 + 2 := by
      rw [UInt8.toNat_ofNat', Nat.mod_eq_of_lt (by omega)]
    have hread := @read_tiny (UInt8.ofNat (codeSize * 4 + 2)) (by omega) rest
    rwa [hbyte, show (codeSize * 4 + 2) / 4 = codeSize by omega] at hread
  | @fat words codeSize maxStack flags localVarSigToken hwords hcode hstack hflags hformat htoken =>
    have hwords' : (words * 2 ^ 12 + flags) / 2 ^ 12 = words := by omega
    have hflags' : (words * 2 ^ 12 + flags) % 2 ^ 12 = flags := by omega
    rw [toBytes, if_pos rfl]
    dsimp only
    rw [Nat.mul_div_cancel _ (by decide : 0 < 4), List.append_assoc, List.append_assoc, List.append_assoc,
      read_flags (by omega) (by omega), ofFields_append hstack hcode htoken, hwords', hflags']
    · rw [hwords', fatSize]
      omega
    · simp only [List.length_append, Bytes.length_toLittleEndian]
      omega

/-- A header is read from the bytes that begin with it. -/
theorem read_eq_ok_iff : read data = .ok h ↔ h.Fits ∧ h.toBytes <+: data := by
  constructor
  · exact fun hread => ⟨fits_of_read hread, isPrefix_of_read hread⟩
  · rintro ⟨hfits, rest, rfl⟩
    exact read_toBytes hfits rest

/-- Bytes that begin with no header. -/
inductive Bad : Bytes → Prop where
  | empty : Bad []
  | unknownFormat {first : UInt8} {rest : Bytes} (hformat : first.toNat % 8 ∉ [2, 3, 6]) : Bad (first :: rest)
  | cut {first : UInt8} {rest : Bytes} (hformat : first.toNat % 8 = 3) (hlength : (first :: rest).length < fatSize) :
      Bad (first :: rest)
  /-- The upper half of the second byte is the size of the header in words. -/
  | short {first second : UInt8} {rest : Bytes} (hformat : first.toNat % 8 = 3)
      (hsize : second.toNat / 16 * 4 < fatSize) : Bad (first :: second :: rest)

private theorem bad_of_error {e : DecodeError} (he : read data = .error e) : Bad data := by
  match data with
  | [] => exact .empty
  | first :: rest =>
    by_cases htiny : first.toNat % 4 = 2
    · rw [read_tiny htiny] at he
      contradiction
    by_cases hformat : first.toNat % 8 = 3
    · by_cases hlength : (first :: rest).length < fatSize
      · exact .cut hformat hlength
      match rest with
      | [] => exact absurd hlength (by simp [fatSize])
      | second :: rest =>
        simp only [List.length_cons, fatSize] at hlength
        have hbyte := first.toNat_lt
        refine .short hformat ?_
        by_contra hsize
        rw [read_fat hformat (by omega) (by rw [fatSize] at hsize ⊢; omega)] at he
        contradiction
    · refine .unknownFormat ?_
      simp only [List.mem_cons, List.not_mem_nil, or_false]
      omega

private theorem not_bad_of_read (hread : read data = .ok h) : ¬Bad data := by
  intro hbad
  obtain ⟨first, rest, rfl, hformat, -⟩ | ⟨first, second, rest, rfl, hformat, hrest, hsize, -⟩ := cases_of_read hread
  · cases hbad with
    | unknownFormat hunknown =>
      simp only [List.mem_cons, List.not_mem_nil, or_false] at hunknown
      omega
    | cut hfat => omega
    | short hfat => omega
  · have hbyte := first.toNat_lt
    rw [fatSize] at hsize
    cases hbad with
    | unknownFormat hunknown => exact absurd (by simp [hformat]) hunknown
    | cut _ hlength =>
      simp only [List.length_cons, fatSize] at hlength
      omega
    | short _ hshort =>
      rw [fatSize] at hshort
      omega

theorem exists_read_eq_error_iff : (∃ e, read data = .error e) ↔ Bad data := by
  constructor
  · rintro ⟨e, he⟩
    exact bad_of_error he
  · intro hbad
    cases hread : read data with
    | error e => exact ⟨e, rfl⟩
    | ok h => exact absurd hbad (not_bad_of_read hread)

end MethodHeader

/-! ### Bodies -/

variable {header : MethodHeader} {data code : Bytes}

theorem readMethodBody_of_error {e : DecodeError} (hread : MethodHeader.read data = .error e) :
    readMethodBody data = .error e := by
  rw [readMethodBody, hread]
  rfl

/-- Behind a header the code is read as far as it is there, and all of it has to be. -/
theorem readMethodBody_of_ok (hread : MethodHeader.read data = .ok header) :
    readMethodBody data =
      if (data.drop header.headerSize).length < header.codeSize then
        .error (.missingCode header.codeSize ((data.drop header.headerSize).take header.codeSize).length)
      else .ok (header, (data.drop header.headerSize).take header.codeSize) := by
  have hlength : ((data.drop header.headerSize).take header.codeSize).length < header.codeSize ↔
      (data.drop header.headerSize).length < header.codeSize := by
    rw [List.length_take]
    omega
  rw [readMethodBody, hread]
  exact if_congr hlength rfl rfl

theorem readMethodBody_eq_ok_iff : readMethodBody data = .ok (header, code) ↔
    header.Fits ∧ header.toBytes <+: data ∧ code = (data.drop header.headerSize).take header.codeSize ∧
      code.length = header.codeSize := by
  rw [← and_assoc, ← MethodHeader.read_eq_ok_iff]
  cases hread : MethodHeader.read data with
  | error e =>
    rw [readMethodBody_of_error hread]
    exact ⟨nofun, nofun⟩
  | ok h =>
    have hlength := List.length_take (i := h.codeSize) (l := data.drop h.headerSize)
    rw [readMethodBody_of_ok hread]
    split
    · next hshort =>
      refine ⟨nofun, ?_⟩
      rintro ⟨⟨⟩, rfl, hcode⟩
      omega
    · next hlong =>
      constructor
      · rintro ⟨⟩
        exact ⟨rfl, rfl, by omega⟩
      · rintro ⟨⟨⟩, rfl, -⟩
        rfl

theorem exists_readMethodBody_eq_error_iff : (∃ e, readMethodBody data = .error e) ↔
    MethodHeader.Bad data ∨ ∃ header : MethodHeader, header.Fits ∧ header.toBytes <+: data ∧
      (data.drop header.headerSize).length < header.codeSize := by
  simp only [← MethodHeader.exists_read_eq_error_iff, ← and_assoc, ← MethodHeader.read_eq_ok_iff]
  cases hread : MethodHeader.read data with
  | error e =>
    rw [readMethodBody_of_error hread]
    exact ⟨fun _ => .inl ⟨e, rfl⟩, fun _ => ⟨e, rfl⟩⟩
  | ok header =>
    rw [readMethodBody_of_ok hread]
    split
    · next hshort => exact ⟨fun _ => .inr ⟨header, rfl, hshort⟩, fun _ => ⟨_, rfl⟩⟩
    · next hlong =>
      constructor
      · rintro ⟨e, ⟨⟩⟩
      · rintro (⟨e, ⟨⟩⟩ | ⟨_, ⟨⟩, hshort⟩)
        exact absurd hshort hlong

/-- A body that was written is read with its header and its code, whatever stands between them and behind.  What is read
is the header that the data begins with, and all of the code behind it.  There is an error if there is no header, or not
all of the code. -/
theorem read_written_bodies :
    (∀ (header : MethodHeader) (padding code rest : Bytes), header.Fits →
      header.toBytes.length + padding.length = header.headerSize → code.length = header.codeSize →
      readMethodBody (header.toBytes ++ (padding ++ (code ++ rest))) = .ok (header, code)) ∧
    (∀ (data : Bytes) (header : MethodHeader) (code : Bytes), readMethodBody data = .ok (header, code) ↔
      header.Fits ∧ header.toBytes <+: data ∧ code = (data.drop header.headerSize).take header.codeSize ∧
        code.length = header.codeSize) ∧
    ∀ data : Bytes, (∃ e, readMethodBody data = .error e) ↔
      MethodHeader.Bad data ∨ ∃ header : MethodHeader, header.Fits ∧ header.toBytes <+: data ∧
        (data.drop header.headerSize).length < header.codeSize := by
  refine ⟨fun header padding code rest hfits hpadding hcode => ?_, fun _ _ _ => readMethodBody_eq_ok_iff,
    fun _ => exists_readMethodBody_eq_error_iff⟩
  refine readMethodBody_eq_ok_iff.2 ⟨hfits, List.prefix_append _ _, ?_, hcode⟩
  rw [← List.append_assoc, List.drop_left' (by rw [List.length_append, hpadding]), List.take_left' hcode]

/-- A header with a word more than it needs, in front of three bytes of code. -/
private def paddedHeader : MethodHeader where
  isFat := true
  headerSize := 16
  codeSize := 3
  maxStack := 2
  flags := 0x1B
  localVarSigToken := 0x11000001

theorem read_written_bodies_padded :
    paddedHeader.Fits ∧ readMethodBody
        [0x1B, 0x40, 2, 0, 3, 0, 0, 0, 1, 0, 0, 0x11, 0xFF, 0xFF, 0xFF, 0xFF, 0x02, 0x03, 0x2A, 0x00] =
      .ok (paddedHeader, [0x02, 0x03, 0x2A]) := by
  have hfits : paddedHeader.Fits := @MethodHeader.Fits.fat 4 3 2 0x1B 0x11000001 (by decide) (by decide) (by decide)
    (by decide) (by decide) (by decide)
  exact ⟨hfits, read_written_bodies.1 paddedHeader [0xFF, 0xFF, 0xFF, 0xFF] [0x02, 0x03, 0x2A] [0x00] hfits rfl rfl⟩

end CilProbe
