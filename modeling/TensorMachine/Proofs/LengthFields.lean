import TensorMachine.Proofs.Encoding

/-!
# Length fields

The bytes of a program tell lengths of seven kinds: the numbers of records, inputs and outputs in
the header, the rank of each type, and for each record the numbers of its inputs, outputs and
parameter bytes. Where such a field stands is decided by the parts in front of it. The encoder
compares all of these lengths with their fields but one: the number of records is written modulo
the width of its field.
-/

namespace TensorMachine

/-- A field that tells a length: the place and the number of its bytes, and what it should tell. -/
structure LengthField where
  offset : Nat
  width : Nat
  length : Nat
  deriving DecidableEq

namespace LengthField

/-- The number that stands at the place of the field. -/
def shown (f : LengthField) (bytes : Bytes) : Nat :=
  LittleEndian.combine ((bytes.drop f.offset).take f.width)

/-- The field lies within the bytes and tells the length that it should. -/
structure Exact (f : LengthField) (bytes : Bytes) : Prop where
  within : f.offset + f.width ≤ bytes.length
  shown : f.shown bytes = f.length

/-- The field behind a number of bytes. -/
def shift (n : Nat) (f : LengthField) : LengthField := { f with offset := n + f.offset }

/-- The fields of parts that stand one behind the other. -/
def ofParts {α : Type} (fields : α → List LengthField) (size : α → Nat) : List α → List LengthField
  | [] => []
  | a :: rest => fields a ++ (ofParts fields size rest).map (shift (size a))

/-!
### Fields within bytes
-/

variable {f : LengthField} {bytes : Bytes}

lemma Exact.before (h : f.Exact bytes) (more : Bytes) : f.Exact (bytes ++ more) where
  within := by
    have hwithin := h.within
    rw [List.length_append]
    omega
  shown := by
    have hwithin := h.within
    have hdrop : (bytes ++ more).drop f.offset = bytes.drop f.offset ++ more :=
      List.drop_append_of_le_length (by omega)
    have htake : (bytes.drop f.offset ++ more).take f.width = (bytes.drop f.offset).take f.width :=
      List.take_append_of_le_length (by rw [List.length_drop]; omega)
    rw [LengthField.shown, hdrop, htake]
    exact h.shown

lemma Exact.behind (h : f.Exact bytes) (front : Bytes) {n : Nat} (hfront : front.length = n) :
    (f.shift n).Exact (front ++ bytes) where
  within := by
    have hwithin := h.within
    rw [List.length_append, hfront]
    simp only [shift]
    omega
  shown := by
    have hdrop : (front ++ bytes).drop (n + f.offset) = bytes.drop f.offset := by
      rw [← hfront, List.drop_append]
      simp
    rw [LengthField.shown, shift, hdrop]
    exact h.shown

/-- A length that is told fits its field. -/
lemma Exact.fits (h : f.Exact bytes) : f.length < 256 ^ f.width := by
  have hlt := LittleEndian.combine_lt ((bytes.drop f.offset).take f.width)
  have hwidth : ((bytes.drop f.offset).take f.width).length = f.width := by
    have hwithin := h.within
    rw [List.length_take, List.length_drop]
    omega
  rw [hwidth] at hlt
  rw [← h.shown]
  exact hlt

lemma exact_u8 {n : Nat} (hn : n ≤ 255) : Exact ⟨0, 1, n⟩ [UInt8.ofNat n] where
  within := Nat.le_refl 1
  shown := UInt8.toNat_ofNat_of_le hn

lemma exact_u16 {n : Nat} (hn : n ≤ 65535) :
    Exact ⟨0, 2, n⟩ (Field.u16 (UInt16.ofNat n)).bytes where
  within := Nat.le_refl 2
  shown := by
    change LittleEndian.combine (LittleEndian.split 2 (UInt16.ofNat n).toNat) = n
    rw [LittleEndian.combine_split, UInt16.toNat_ofNat_of_le hn]
    exact Nat.mod_eq_of_lt (by omega)

/-- The fields of parts are those of the bytes that the parts have together. -/
lemma exact_ofParts {α : Type} {fields : α → List LengthField} {size : α → Nat}
    {toBytes : α → Bytes} {parts : List α} (hsize : ∀ a, (toBytes a).length = size a)
    (h : ∀ a ∈ parts, ∀ f ∈ fields a, f.Exact (toBytes a)) :
    ∀ f ∈ ofParts fields size parts, f.Exact (parts.flatMap toBytes) := by
  induction parts with
  | nil => exact nofun
  | cons a parts ih =>
    obtain ⟨ha, hrest⟩ := List.forall_mem_cons.mp h
    intro f hf
    rw [List.flatMap_cons]
    rcases List.mem_append.mp hf with hf | hf
    · exact (ha f hf).before _
    · obtain ⟨g, hg, rfl⟩ := List.mem_map.mp hf
      exact (ih hrest g hg).behind _ (hsize a)

end LengthField

open LengthField

/-!
### Fields of the layout
-/

def Program.Input.lengthFields (i : Input) : List LengthField := [⟨5, 1, i.type.rank⟩]

/-- The length fields of the record of an instruction. -/
def Instruction.lengthFields (i : Instruction) : List LengthField :=
  [⟨1, 1, i.inputs.length⟩, ⟨2, 1, i.outputs.length⟩, ⟨4, 2, i.params.length⟩] ++
    match i with
    | allocate _ type _ => [⟨12, 1, type.rank⟩]
    | transfer .. | deallocate .. | compute .. => []

namespace Program

def recordCountField (p : Program) : LengthField := ⟨8, 4, p.instructions.length⟩

/-- The length fields that the encoder checks: all but the number of records. -/
def checkedLengths (p : Program) : List LengthField :=
  let inputsSize := (p.inputs.map fun i => 6 + 4 * i.type.rank).sum
  [⟨12, 2, p.inputs.length⟩, ⟨14, 2, p.outputs.length⟩] ++
    (ofParts Input.lengthFields (fun i => 6 + 4 * i.type.rank) p.inputs).map (shift 16) ++
    (ofParts Instruction.lengthFields Instruction.encodedLength p.instructions).map
      (shift (16 + inputsSize + 4 * p.outputs.length))

end Program

lemma Program.Input.exact_lengthFields {i : Input} (hrank : i.type.rank ≤ 255) :
    ∀ f ∈ i.lengthFields, f.Exact i.bytes := by
  intro f hf
  rw [List.mem_singleton.mp hf]
  have hbytes : i.bytes = ((Field.u32 i.id).bytes ++ [i.type.element.code]) ++
      ([UInt8.ofNat i.type.rank] ++ i.type.dims.flatMap fun d => (Field.u32 d).bytes) := by
    simp [bytes, TensorType.bytes]
  rw [hbytes]
  exact ((exact_u8 hrank).before _).behind _ rfl

lemma Record.exact_counts {r : Record} (hfits : r.Fits) :
    Exact ⟨1, 1, r.inputs.length⟩ r.bytes ∧ Exact ⟨2, 1, r.outputs.length⟩ r.bytes ∧
      Exact ⟨4, 2, r.params.length⟩ r.bytes := by
  have hbytes : r.bytes = [r.opcode.tag] ++ ([UInt8.ofNat r.inputs.length] ++
      ([UInt8.ofNat r.outputs.length] ++ ([0] ++
        ((Field.u16 (UInt16.ofNat r.params.length)).bytes ++
          (identifierBytes r.inputs ++ (identifierBytes r.outputs ++ r.params)))))) := by
    simp [bytes]
  rw [hbytes]
  let tag := r.opcode.tag
  let inputCount := UInt8.ofNat r.inputs.length
  let outputCount := UInt8.ofNat r.outputs.length
  refine ⟨?_, ?_, ?_⟩
  · exact ((exact_u8 hfits.inputs).before _).behind [tag] rfl
  · exact ((exact_u8 hfits.outputs).before _).behind [tag, inputCount] rfl
  · exact ((exact_u16 hfits.params).before _).behind [tag, inputCount, outputCount, 0] rfl

lemma Instruction.exact_lengthFields {i : Instruction} (h : i.WithinLimits) :
    ∀ f ∈ i.lengthFields, f.Exact i.record.bytes := by
  have hcheck : i.checkEncodable 0 = .ok () := Instruction.checkEncodable_eq_ok_iff.mpr h
  have hfits : i.record.Fits := record_fits hcheck
  obtain ⟨hinputs, houtputs, hparams⟩ := Record.exact_counts hfits
  intro f hf
  rcases List.mem_append.mp hf with hf | hf
  · simp only [List.mem_cons, List.not_mem_nil, or_false] at hf
    rcases hf with rfl | rfl | rfl
    · exact hinputs
    · exact houtputs
    · exact hparams
  · cases i with
    | allocate output type residence =>
      rw [List.mem_singleton.mp hf]
      have hbytes : (allocate output type residence).record.bytes =
          ([Opcode.allocate.tag, 0, 1, 0] ++
            (Field.u16 (UInt16.ofNat (type.bytes.length + 1))).bytes ++ (Field.u32 output).bytes ++
            [residence.code, type.element.code]) ++
          ([UInt8.ofNat type.rank] ++ type.dims.flatMap fun d => (Field.u32 d).bytes) := by
        simp [record, Record.bytes, inputs, outputs, params, opcode, identifierBytes,
          TensorType.bytes]
      rw [hbytes]
      exact ((exact_u8 h).before _).behind _ rfl
    | transfer | deallocate | compute => cases hf

namespace Program

lemma exact_checkedLengths {p : Program} (h : p.WithinLimits) :
    ∀ f ∈ p.checkedLengths, f.Exact p.bytes := by
  let header := headerBytes p.instructions.length p.inputs.length p.outputs.length
  have hbytes : p.bytes = header ++ (p.inputs.flatMap Input.bytes ++
      (identifierBytes p.outputs ++ p.instructions.flatMap fun i => i.record.bytes)) := by
    simp [bytes, header]
  have hfront : (header ++ p.inputs.flatMap Input.bytes ++ identifierBytes p.outputs).length =
      16 + (p.inputs.map fun i => 6 + 4 * i.type.rank).sum + 4 * p.outputs.length := by
    simp only [header, List.length_append, length_headerBytes, List.length_flatMap,
      Input.length_bytes, length_identifierBytes]
  intro f hf
  simp only [checkedLengths, List.mem_append, List.mem_cons, List.not_mem_nil, or_false] at hf
  rcases hf with ((rfl | rfl) | hf) | hf
  · rw [hbytes]
    have hfield : Exact ⟨12, 2, p.inputs.length⟩ header :=
      ((exact_u16 h.inputCount).before _).behind (header.take 12) rfl
    exact hfield.before _
  · rw [hbytes]
    have hfield : Exact ⟨14, 2, p.outputs.length⟩ header :=
      (exact_u16 h.outputCount).behind (header.take 14) rfl
    exact hfield.before _
  · obtain ⟨g, hg, rfl⟩ := List.mem_map.mp hf
    have hinputs := exact_ofParts Input.length_bytes
      (fun i hi => Input.exact_lengthFields (h.inputs i hi)) g hg
    rw [hbytes]
    exact (hinputs.before _).behind _ rfl
  · obtain ⟨g, hg, rfl⟩ := List.mem_map.mp hf
    have hrecords := exact_ofParts Instruction.length_record_bytes
      (fun i hi => Instruction.exact_lengthFields (h.instructions i hi)) g hg
    exact hrecords.behind _ hfront

lemma shown_recordCountField (p : Program) :
    p.recordCountField.shown p.bytes = p.instructions.length % UInt32.size := by
  have hfield : (p.bytes.drop 8).take 4 =
      LittleEndian.split 4 (UInt32.ofNat p.instructions.length).toNat := rfl
  rw [LengthField.shown, recordCountField, hfield, LittleEndian.combine_split, UInt32.toNat_ofNat']
  exact Nat.mod_mod _ _

/-- An encoded program tells all its lengths as they are, but that the number of records is told
modulo the width of its field. So it is told as it is for fewer than `2 ^ 32` records. A program with
any other length that does not fit its field is refused. -/
theorem length_fields (p : Program) :
    (∀ bytes, p.encode = .ok bytes →
      (∀ f ∈ p.checkedLengths, f.Exact bytes) ∧
      p.recordCountField.shown bytes = p.instructions.length % UInt32.size ∧
      (p.instructions.length < UInt32.size → p.recordCountField.Exact bytes)) ∧
    ∀ f ∈ p.checkedLengths, 256 ^ f.width ≤ f.length → ∃ e, p.encode = .error e := by
  refine ⟨fun bytes hencode => ?_, fun f hf hlarge => ?_⟩
  · obtain ⟨hlimits, rfl⟩ := encode_eq_ok_iff.mp hencode
    refine ⟨exact_checkedLengths hlimits, p.shown_recordCountField, fun hfew => ⟨?_, ?_⟩⟩
    · rw [length_bytes]
      change 12 ≤ _
      omega
    · rw [shown_recordCountField]
      exact Nat.mod_eq_of_lt hfew
  · cases hencode : p.encode with
    | error e => exact ⟨e, rfl⟩
    | ok bytes =>
      obtain ⟨hlimits, rfl⟩ := encode_eq_ok_iff.mp hencode
      exact absurd (exact_checkedLengths hlimits f hf).fits (Nat.not_lt.mpr hlarge)

/-- The lengths in a program of one input, one output and two records, and a program that is refused
for a rank of 256. -/
theorem length_fields_allocate :
    let p : Program := ⟨[⟨1, ⟨.f32, [2, 4]⟩⟩], [3],
      [.allocate 2 ⟨.f32, [2, 4]⟩ .device, .compute .add [2, 2] 3]⟩
    let q : Program := ⟨[], [], [.allocate 1 ⟨.u8, List.replicate 256 1⟩ .host]⟩
    p.encode = .ok p.bytes ∧ p.recordCountField.Exact p.bytes ∧
      p.checkedLengths = [⟨12, 2, 1⟩, ⟨14, 2, 1⟩, ⟨21, 1, 2⟩, ⟨35, 1, 0⟩, ⟨36, 1, 1⟩, ⟨38, 2, 11⟩,
        ⟨46, 1, 2⟩, ⟨56, 1, 2⟩, ⟨57, 1, 1⟩, ⟨59, 2, 1⟩] ∧
      (∀ f ∈ p.checkedLengths, f.Exact p.bytes) ∧ ∃ e, q.encode = .error e := by
  intro p q
  have hencode : p.encode = .ok p.bytes := by decide
  obtain ⟨hchecked, -, hcount⟩ := (length_fields p).1 p.bytes hencode
  refine ⟨hencode, hcount (by decide), by decide, hchecked, ?_⟩
  have hrank : TensorType.rank ⟨.u8, List.replicate 256 1⟩ = 256 := List.length_replicate
  have hfield : ⟨28, 1, TensorType.rank ⟨.u8, List.replicate 256 1⟩⟩ ∈ q.checkedLengths := by
    refine List.mem_append_right _ (List.mem_map.mpr ⟨⟨12, 1, _⟩, ?_, rfl⟩)
    exact List.mem_append_left _ (List.mem_append_right _ (List.mem_singleton.mpr rfl))
  exact (length_fields q).2 _ hfield (Nat.le_of_eq hrank.symm)

lemma decode_of_wrapped_count {instructions : List Instruction}
    (hcount : instructions.length = UInt32.size) (hne : (recordBytes instructions).length ≠ 0) :
    decode (bytes ⟨[], [], instructions⟩) =
      .error (.trailingBytes (recordBytes instructions).length) := by
  have hwrap : (UInt32.ofNat instructions.length).toNat = 0 := by
    rw [hcount]
    rfl
  have hnone : 0 ≤ 65535 := Nat.zero_le 65535
  have hheader := reads_headerWith_wrapped 0 instructions.length hnone hnone
  rw [hwrap] at hheader
  have hread : read.Reads (headerWith 0 instructions.length 0 0) ⟨[], [], []⟩ :=
    hheader.then_nil fun offset rest => rfl
  have hbytes : bytes ⟨[], [], instructions⟩ =
      headerWith 0 instructions.length 0 0 ++ recordBytes instructions := by
    simp only [bytes, List.flatMap_nil, identifierBytes, List.append_nil]
    rfl
  rw [decode, hbytes, Cursor.start, hread]
  exact if_neg hne

/-- A program of `2 ^ 32` records is encoded, but its header tells that there are none. So all its
records are read as bytes behind the last one. -/
theorem recordCount_wraps :
    let p : Program := ⟨[], [], List.replicate UInt32.size (.deallocate 0 false)⟩
    p.encode = .ok p.bytes ∧ p.recordCountField.length = UInt32.size ∧
      p.recordCountField.shown p.bytes = 0 ∧
      decode p.bytes = .error (.trailingBytes (11 * UInt32.size)) := by
  intro p
  have hlimits : p.WithinLimits :=
    ⟨Nat.zero_le _, Nat.zero_le _, nofun, fun i hi => (List.eq_of_mem_replicate hi) ▸ trivial⟩
  have hcount : p.instructions.length = UInt32.size := List.length_replicate
  have hlength : (recordBytes p.instructions).length = 11 * UInt32.size := by
    rw [recordBytes, List.length_flatMap, List.map_replicate, List.sum_replicate_nat,
      Instruction.length_record_bytes, Nat.mul_comm]
    rfl
  refine ⟨encode_eq_ok_iff.mpr ⟨hlimits, rfl⟩, hcount, ?_, ?_⟩
  · rw [shown_recordCountField, hcount]
    exact Nat.mod_self _
  · rw [← hlength]
    exact decode_of_wrapped_count hcount (by rw [hlength]; decide)

end Program

end TensorMachine
