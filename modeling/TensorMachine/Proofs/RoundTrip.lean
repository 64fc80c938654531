import TensorMachine.Proofs.Layouts
import TensorMachine.Proofs.Steps

/-!
# Reading programs back

What is read from the bytes of a program is the program itself, layer by layer: types, records,
instructions, and the program around them. The reader is stricter than the writer in two places. An
allocation whose size cannot be addressed and a computation without inputs have bytes, but these
are read as malformed; the first such instruction decides what is read from the program.
-/

namespace TensorMachine

/-- Why the record of an instruction is malformed, if it is. -/
def Instruction.flaw? : Instruction → Option Malformation
  | allocate _ type _ => if type.byteSize? = none then some (.unaddressable type) else none
  | transfer .. => none
  | deallocate .. => none
  | compute _ inputs _ => if inputs = [] then some .noComputeInputs else none

lemma TensorType.checkRank_eq_ok_iff {t : TensorType} : t.checkRank = .ok () ↔ t.rank ≤ 255 := by
  by_cases h : t.rank ≤ 255 <;> simp [checkRank, h]

lemma TensorType.length_bytes (t : TensorType) : t.bytes.length = 2 + 4 * t.rank := by
  simp [bytes, rank, Field.bytes, List.length_flatMap]
  omega

lemma Record.readParams_of_fails {α : Type} {r : Record} {reader : Reader DecodeError α}
    {e : DecodeError} (h : reader.Fails r.params e) : r.readParams reader = .error e := by
  rw [readParams, h.start]

/-!
### Instructions
-/

namespace Instruction

lemma record_fits {index : Nat} {i : Instruction} (h : i.checkEncodable index = .ok ()) :
    i.record.Fits := by
  cases i with
  | allocate output type residence =>
    have hrank := TensorType.checkRank_eq_ok_iff.mp h
    refine ⟨by simp [record, inputs], by simp [record, outputs], ?_⟩
    simp only [record, params, List.length_cons, TensorType.length_bytes]
    omega
  | transfer destination input target =>
    refine ⟨by simp [record, inputs], ?_, by simp [record, params]⟩
    cases target <;> simp [record, outputs, Target.ids]
  | deallocate input force =>
    exact ⟨by simp [record, inputs], by simp [record, outputs], by simp [record, params]⟩
  | compute kernel inputs output =>
    refine ⟨?_, by simp [record, outputs], by simp [record, params]⟩
    simp only [checkEncodable] at h
    split at h
    · assumption
    · cases h

lemma allocationParams_fails {index : Nat} {type : TensorType} {residence : Residence}
    (hrank : type.rank ≤ 255) (hsize : type.byteSize? = none) :
    (Record.allocationParams index).Fails (residence.code :: type.bytes)
      (.malformed index (.unaddressable type)) := by
  have hensure := Reader.fails_ensure (not_not.mpr hsize)
    (DecodeError.malformed index (.unaddressable type))
  refine Reader.Reads.bind_fails ((Reader.reads_byte residence.code).withError _) ?_
  refine (Reader.reads_ofOption (Residence.ofCode?_code residence) _).bind_nil_fails ?_
  exact ((TensorType.reads_bytes hrank).withError _).then_fails (hensure.bind _)

lemma framed_record {index : Nat} {i : Instruction} (h : i.checkEncodable index = .ok ())
    (hflaw : i.flaw? = none) : i.Framed i.record := by
  cases i with
  | allocate output type residence =>
    have hrank := TensorType.checkRank_eq_ok_iff.mp h
    have hsize : type.byteSize? ≠ none := by simpa [flaw?] using hflaw
    have hframed := Framed.allocate output residence [] hrank hsize
    rwa [List.append_nil] at hframed
  | transfer destination input target =>
    cases target with
    | inPlace => exact .inPlace destination input []
    | renamed output =>
      have hne : output ≠ input := by
        intro hid
        simp only [checkEncodable, if_pos hid] at h
        cases h
      exact .renamed destination hne []
  | deallocate input force => exact .deallocate input force []
  | compute kernel inputs output =>
    have hne : inputs ≠ [] := by simpa [flaw?] using hflaw
    exact .compute kernel hne output []

lemma written_record {index : Nat} {i : Instruction} (h : i.checkEncodable index = .ok ())
    (hflaw : i.flaw? = none) : i.Written i.record.bytes :=
  ⟨i.record, 0, framed_record h hflaw, record_fits h, rfl⟩

lemma instruction_record_of_flaw {index : Nat} {i : Instruction}
    (h : i.checkEncodable index = .ok ()) {reason : Malformation}
    (hflaw : i.flaw? = some reason) :
    i.record.instruction index = .error (.malformed index reason) := by
  cases i with
  | allocate output type residence =>
    have hrank := TensorType.checkRank_eq_ok_iff.mp h
    simp only [flaw?] at hflaw
    split at hflaw
    · next hsize =>
      cases hflaw
      have hread : (allocate output type residence).record.readParams
          (Record.allocationParams index) = .error (.malformed index (.unaddressable type)) :=
        Record.readParams_of_fails (allocationParams_fails hrank hsize)
      exact Except.bind_eq_error_iff.mpr (.inl hread)
    · cases hflaw
  | transfer destination input target => cases hflaw
  | deallocate input force => cases hflaw
  | compute kernel inputs output =>
    simp only [flaw?] at hflaw
    split at hflaw
    · next hinputs =>
      cases hflaw
      subst hinputs
      rfl
    · cases hflaw

lemma fails_record {index : Nat} {i : Instruction} (h : i.checkEncodable index = .ok ())
    {reason : Malformation} (hflaw : i.flaw? = some reason) :
    (read index).Fails i.record.bytes (.malformed index reason) := by
  have hanswer := Reader.fails_ofExcept (instruction_record_of_flaw h hflaw)
  exact (Record.reads_bytesWith (record_fits h) 0 index).then_fails hanswer

end Instruction

namespace Program

/-- The bytes of instructions, record by record. -/
def recordBytes (instructions : List Instruction) : Bytes :=
  instructions.flatMap fun i => i.record.bytes

lemma checkInstructions_cons {index : Nat} {i : Instruction} {rest : List Instruction}
    (h : checkInstructions index (i :: rest) = .ok ()) :
    i.checkEncodable index = .ok () ∧ checkInstructions (index + 1) rest = .ok () := by
  unfold checkInstructions at h
  split at h
  · next hi => exact ⟨hi, h⟩
  · cases h

lemma checkInstructions_append {index : Nat} {before after : List Instruction}
    (h : checkInstructions index (before ++ after) = .ok ()) :
    checkInstructions index before = .ok () ∧
      checkInstructions (index + before.length) after = .ok () := by
  induction before generalizing index with
  | nil => exact ⟨rfl, h⟩
  | cons i before ih =>
    obtain ⟨hi, hrest⟩ := checkInstructions_cons h
    obtain ⟨hbefore, hafter⟩ := ih hrest
    refine ⟨?_, ?_⟩
    · rw [checkInstructions, hi]
      exact hbefore
    · rwa [List.length_cons, Nat.add_comm before.length, ← Nat.add_assoc]

lemma forall₂_written {instructions : List Instruction} {index : Nat}
    (h : checkInstructions index instructions = .ok ())
    (hflaw : ∀ i ∈ instructions, i.flaw? = none) :
    List.Forall₂ Instruction.Written instructions (instructions.map fun i => i.record.bytes) := by
  induction instructions generalizing index with
  | nil => exact .nil
  | cons i instructions ih =>
    obtain ⟨hi, hrest⟩ := checkInstructions_cons h
    obtain ⟨hiflaw, hflaws⟩ := List.forall_mem_cons.mp hflaw
    exact .cons (Instruction.written_record hi hiflaw) (ih hrest hflaws)

/-!
### Programs
-/

lemma reads_instructions {instructions : List Instruction}
    (h : checkInstructions 0 instructions = .ok ())
    (hflaw : ∀ i ∈ instructions, i.flaw? = none) :
    Reader.Reads (readInstructions 0 instructions.length []) (recordBytes instructions)
      instructions := by
  have hread := reads_records (forall₂_written h hflaw)
  rwa [← List.flatMap_def] at hread

lemma fails_instructions {before after : List Instruction} {i : Instruction}
    (h : checkInstructions 0 (before ++ i :: after) = .ok ())
    (hbefore : ∀ x ∈ before, x.flaw? = none) {reason : Malformation}
    (hflaw : i.flaw? = some reason) :
    Reader.Fails (readInstructions 0 (before ++ i :: after).length [])
      (recordBytes (before ++ i :: after)) (.malformed before.length reason) := by
  intro offset rest
  obtain ⟨hcheck, hafter⟩ := checkInstructions_append h
  have hi := (checkInstructions_cons hafter).1
  have hread := readInstructions_of_written (forall₂_written hcheck hbefore) 0
    (after.length + 1) [] offset (i.record.bytes ++ (recordBytes after ++ rest))
  have hbytes : recordBytes (before ++ i :: after) ++ rest =
      (before.map fun i => i.record.bytes).flatten ++
        (i.record.bytes ++ (recordBytes after ++ rest)) := by
    simp [recordBytes, List.flatMap_def]
  rw [Nat.zero_add] at hi
  rw [List.length_append, List.length_cons, hbytes, hread, Nat.zero_add, readInstructions,
    Instruction.fails_record hi hflaw]

lemma reads_header {records inputs outputs : Nat} (hrecords : records < UInt32.size)
    (hinputs : inputs ≤ 65535) (houtputs : outputs ≤ 65535) :
    readHeader.Reads (headerBytes records inputs outputs) ⟨records, inputs, outputs⟩ :=
  reads_headerWith 0 hrecords hinputs houtputs

lemma checkBindingCount_eq_ok_iff {count : Nat} :
    checkBindingCount count = .ok () ↔ count ≤ 65535 := by
  by_cases h : count ≤ 65535 <;> simp [checkBindingCount, h]

lemma checkInputs_eq_ok_iff {inputs : List Input} :
    checkInputs inputs = .ok () ↔ ∀ i ∈ inputs, i.type.rank ≤ 255 := by
  induction inputs with
  | nil => simp [checkInputs]
  | cons i inputs ih =>
    rw [List.forall_mem_cons, ← ih, ← TensorType.checkRank_eq_ok_iff, checkInputs]
    cases i.type.checkRank <;> simp

lemma bytes_of_encode {p : Program} {bytes : Bytes} (h : p.encode = .ok bytes) :
    bytes = p.bytes ∧ p.inputs.length ≤ 65535 ∧ p.outputs.length ≤ 65535 ∧
      checkInputs p.inputs = .ok () ∧ checkInstructions 0 p.instructions = .ok () := by
  obtain ⟨_, hcheck, hbytes⟩ := Except.bind_eq_ok_iff.mp h
  obtain ⟨_, hinputs, hcheck⟩ := Except.bind_eq_ok_iff.mp hcheck
  obtain ⟨_, houtputs, hcheck⟩ := Except.bind_eq_ok_iff.mp hcheck
  obtain ⟨_, htypes, hinstructions⟩ := Except.bind_eq_ok_iff.mp hcheck
  cases hbytes
  exact ⟨rfl, checkBindingCount_eq_ok_iff.mp hinputs, checkBindingCount_eq_ok_iff.mp houtputs, htypes,
    hinstructions⟩

/-- Reading the bytes of an encoded program comes down to reading its records. -/
lemma read_bytes {p : Program} (hcount : p.instructions.length < UInt32.size)
    (hinputs : p.inputs.length ≤ 65535) (houtputs : p.outputs.length ≤ 65535)
    (htypes : checkInputs p.inputs = .ok ()) :
    (∀ {instructions}, Reader.Reads (readInstructions 0 p.instructions.length [])
        (recordBytes p.instructions) instructions →
      read.Reads p.bytes ⟨p.inputs, p.outputs, instructions⟩) ∧
    ∀ {e}, Reader.Fails (readInstructions 0 p.instructions.length [])
        (recordBytes p.instructions) e → read.Fails p.bytes e := by
  have hheader := reads_header hcount hinputs houtputs
  have hbindings := Reader.reads_times p.inputs
    fun i hi => Input.reads_bytes (checkInputs_eq_ok_iff.mp htypes i hi)
  have hidentifiers := (Reader.reads_u32s p.outputs).within none
  have hbytes : p.bytes = headerBytes p.instructions.length p.inputs.length p.outputs.length ++
      (p.inputs.flatMap Input.bytes ++
        (identifierBytes p.outputs ++ recordBytes p.instructions)) := by
    simp [bytes, recordBytes]
  rw [hbytes]
  refine ⟨fun h => ?_, fun h => ?_⟩
  · refine hheader.bind (hbindings.bind (hidentifiers.bind ?_))
    exact h.then_nil (Reader.reads_pure _)
  · refine hheader.bind_fails (hbindings.bind_fails (hidentifiers.bind_fails ?_))
    exact h.bind _

/-- An encoded program is read back from its bytes, unless one of its instructions has a flaw. Then
the first of these instructions is reported as malformed. -/
theorem decode_of_encode {p : Program} {bytes : Bytes} (hencode : p.encode = .ok bytes)
    (hcount : p.instructions.length < UInt32.size) :
    ((∀ i ∈ p.instructions, i.flaw? = none) → decode bytes = .ok p) ∧
    ∀ before i after reason, p.instructions = before ++ i :: after →
      (∀ x ∈ before, x.flaw? = none) → i.flaw? = some reason →
        decode bytes = .error (.malformed before.length reason) := by
  obtain ⟨rfl, hinputs, houtputs, htypes, hcheck⟩ := bytes_of_encode hencode
  obtain ⟨hreads, hfails⟩ := read_bytes hcount hinputs houtputs htypes
  refine ⟨fun hflaw => ?_, fun before i after reason hsplit hbefore hflaw => ?_⟩
  · have hread := (hreads (reads_instructions hcheck hflaw)).start
    rw [decode, hread]
    rfl
  · rw [hsplit] at hcheck
    have hrecords := fails_instructions hcheck hbefore hflaw
    rw [← hsplit] at hrecords
    rw [decode, (hfails hrecords).start]

/-- A program whose second instruction is a computation without inputs. -/
theorem decode_of_encode_noInputs :
    let p : Program := ⟨[], [], [.allocate 1 ⟨.f32, [2]⟩ .device, .compute .relu [] 2]⟩
    p.encode = .ok p.bytes ∧ p.instructions.length < UInt32.size ∧
      decode p.bytes = .error (.malformed 1 .noComputeInputs) := by
  intro p
  have hencode : p.encode = .ok p.bytes := rfl
  have hcount : p.instructions.length < UInt32.size := by decide
  refine ⟨hencode, hcount, ?_⟩
  exact (decode_of_encode hencode hcount).2 [.allocate 1 ⟨.f32, [2]⟩ .device] _ [] _ rfl
    (by decide) rfl

end Program

end TensorMachine
