import TensorMachine.Proofs.ReaderLaws
import Mathlib.Data.List.Forall2

/-!
# Layouts of programs

The byte strings that lay out a program. A program has more than one layout: the flags of the
header and the reserved byte of a record may be anything, more bytes may follow the parameters that
an operation needs, and a transfer in place may name its input as its output. Whatever the layout
of a program, the program is read from it.
-/

namespace TensorMachine

lemma UInt8.toNat_ofNat_of_le {n : Nat} (h : n ≤ 255) : (UInt8.ofNat n).toNat = n :=
  UInt8.toNat_ofNat_of_lt' (Nat.lt_succ_of_le h)

lemma UInt16.toNat_ofNat_of_le {n : Nat} (h : n ≤ 65535) : (UInt16.ofNat n).toNat = n :=
  UInt16.toNat_ofNat_of_lt' (Nat.lt_succ_of_le h)

lemma TensorType.reads_bytes {t : TensorType} (hrank : t.rank ≤ 255) : read.Reads t.bytes t := by
  have hdims := Reader.reads_u32s t.dims
  have htimes : (UInt8.ofNat t.rank).toNat = t.dims.length := UInt8.toNat_ofNat_of_le hrank
  rw [← htimes] at hdims
  refine ((Reader.reads_byte t.element.code).withError _).bind ?_
  refine (Reader.reads_ofOption (ElementType.ofCode?_code t.element) _).bind_nil ?_
  refine ((Reader.reads_byte (UInt8.ofNat t.rank)).withError _).bind ?_
  exact (hdims.withError _).then_nil (Reader.reads_pure t)

/-!
### Records
-/

/-- The lengths of a record fit their fields. -/
structure Record.Fits (r : Record) : Prop where
  inputs : r.inputs.length ≤ 255
  outputs : r.outputs.length ≤ 255
  params : r.params.length ≤ 65535

namespace Record

/-- The bytes of the record with some reserved byte. -/
def bytesWith (reserved : UInt8) (r : Record) : Bytes :=
  [r.opcode.tag, UInt8.ofNat r.inputs.length, UInt8.ofNat r.outputs.length, reserved] ++
    (Field.u16 (UInt16.ofNat r.params.length)).bytes ++
    identifierBytes r.inputs ++ identifierBytes r.outputs ++ r.params

lemma reads_bytesWith {r : Record} (hfits : r.Fits) (reserved : UInt8) (index : Nat) :
    (read index).Reads (r.bytesWith reserved) r := by
  have hinputs := Reader.reads_u32s r.inputs
  have houtputs := Reader.reads_u32s r.outputs
  have hparams := Reader.reads_take r.params
  rw [← UInt8.toNat_ofNat_of_le hfits.inputs] at hinputs
  rw [← UInt8.toNat_ofNat_of_le hfits.outputs] at houtputs
  rw [← UInt16.toNat_ofNat_of_le hfits.params] at hparams
  have hbytes : r.bytesWith reserved = [r.opcode.tag] ++ ([UInt8.ofNat r.inputs.length] ++
      ([UInt8.ofNat r.outputs.length] ++ ([reserved] ++
        ((Field.u16 (UInt16.ofNat r.params.length)).bytes ++
          (identifierBytes r.inputs ++ (identifierBytes r.outputs ++ r.params)))))) := by
    simp [bytesWith]
  rw [hbytes]
  refine ((Reader.reads_byte r.opcode.tag).within _).bind ?_
  refine ((Reader.reads_byte (UInt8.ofNat r.inputs.length)).within _).bind ?_
  refine ((Reader.reads_byte (UInt8.ofNat r.outputs.length)).within _).bind ?_
  refine ((Reader.reads_byte reserved).within _).bind ?_
  refine ((Reader.reads_u16 (UInt16.ofNat r.params.length)).within _).bind ?_
  refine (Reader.reads_ofOption (Opcode.ofTag?_tag r.opcode) _).bind_nil ?_
  refine (hinputs.within _).bind ?_
  refine (houtputs.within _).bind ?_
  exact (hparams.within _).then_nil (Reader.reads_pure r)

lemma readParams_append {α : Type} {r : Record} {reader : Reader DecodeError α} {a : α}
    {bytes more : Bytes} (hparams : r.params = bytes ++ more) (h : reader.Reads bytes a) :
    r.readParams reader = .ok a := by
  rw [readParams, hparams, Cursor.start, h]

end Record

/-!
### Instructions
-/

namespace Instruction

/-- The records that stand for an instruction. More bytes may follow the parameters that an
operation needs, and a transfer in place may name its input as its output. -/
inductive Framed : Instruction → Record → Prop
  | allocate (output : TensorId) {type : TensorType} (residence : Residence) (more : Bytes)
    (hrank : type.rank ≤ 255) (hsize : type.byteSize? ≠ none) :
    Framed (.allocate output type residence)
      ⟨.allocate, [], [output], residence.code :: type.bytes ++ more⟩
  | inPlace (destination : Residence) (input : TensorId) (more : Bytes) :
    Framed (.transfer destination input .inPlace)
      ⟨.transferTo destination, [input], [], more⟩
  | ontoItself (destination : Residence) (input : TensorId) (more : Bytes) :
    Framed (.transfer destination input .inPlace)
      ⟨.transferTo destination, [input], [input], more⟩
  | renamed (destination : Residence) {input output : TensorId} (hne : output ≠ input)
    (more : Bytes) :
    Framed (.transfer destination input (.renamed output))
      ⟨.transferTo destination, [input], [output], more⟩
  | deallocate (input : TensorId) (force : Bool) (more : Bytes) :
    Framed (.deallocate input force)
      ⟨.deallocate, [input], [], (if force then 1 else 0) :: more⟩
  | compute (kernel : Kernel) {inputs : List TensorId} (hne : inputs ≠ []) (output : TensorId)
    (more : Bytes) :
    Framed (.compute kernel inputs output)
      ⟨.compute, inputs, [output], kernel.code :: more⟩

lemma allocationParams_reads {index : Nat} {type : TensorType} {residence : Residence}
    (hrank : type.rank ≤ 255) (hsize : type.byteSize? ≠ none) :
    (Record.allocationParams index).Reads (residence.code :: type.bytes) (residence, type) := by
  refine Reader.Reads.bind ((Reader.reads_byte residence.code).withError _) ?_
  refine (Reader.reads_ofOption (Residence.ofCode?_code residence) _).bind_nil ?_
  refine ((TensorType.reads_bytes hrank).withError _).then_nil ?_
  exact (Reader.reads_ensure hsize _).bind_nil (Reader.reads_pure _)

lemma forceParam_reads (index : Nat) (force : Bool) :
    (Record.forceParam index).Reads [if force then 1 else 0] force := by
  have hflag : Record.flag? (if force then 1 else 0) = some force := by cases force <;> rfl
  refine Reader.Reads.then_nil ((Reader.reads_byte _).withError _) ?_
  exact Reader.reads_ofOption hflag _

lemma kernelParam_reads (index : Nat) (kernel : Kernel) :
    (Record.kernelParam index).Reads [kernel.code] kernel := by
  refine Reader.Reads.then_nil ((Reader.reads_byte _).withError _) ?_
  exact Reader.reads_ofOption (Kernel.ofCode?_code kernel) _

lemma Framed.instruction_eq_ok {i : Instruction} {r : Record} (h : i.Framed r) (index : Nat) :
    r.instruction index = .ok i := by
  cases h with
  | @allocate output type residence more hrank hsize =>
    have hread : (Record.allocationParams index).Reads (residence.code :: type.bytes)
        (residence, type) := allocationParams_reads hrank hsize
    have hparams := Record.readParams_append
      (r := ⟨.allocate, [], [output], residence.code :: type.bytes ++ more⟩) rfl hread
    simp only [Record.instruction, hparams, bind, Except.bind]
  | inPlace destination input more =>
    cases destination <;> rfl
  | ontoItself destination input more =>
    cases destination <;>
      simp [Record.instruction, Record.transfer, Record.transferTarget?, Opcode.transferTo]
  | @renamed destination input output hne more =>
    cases destination <;>
      simp [Record.instruction, Record.transfer, Record.transferTarget?, Opcode.transferTo, hne]
  | deallocate input force more =>
    have hparams := Record.readParams_append
      (r := ⟨.deallocate, [input], [], (if force then 1 else 0) :: more⟩) rfl
      (forceParam_reads index force)
    simp only [Record.instruction, hparams, bind, Except.bind]
  | @compute kernel inputs hne output more =>
    have hparams := Record.readParams_append
      (r := ⟨.compute, inputs, [output], kernel.code :: more⟩) rfl
      (kernelParam_reads index kernel)
    cases inputs with
    | nil => exact absurd rfl hne
    | cons input inputs => simp only [Record.instruction, hparams, bind, Except.bind]

/-- The bytes lay out a record that stands for the instruction. -/
def Written (i : Instruction) (bytes : Bytes) : Prop :=
  ∃ r reserved, i.Framed r ∧ r.Fits ∧ bytes = r.bytesWith reserved

lemma Written.reads {i : Instruction} {bytes : Bytes} (h : i.Written bytes) (index : Nat) :
    (read index).Reads bytes i := by
  obtain ⟨r, reserved, hframed, hfits, rfl⟩ := h
  have hanswer := Reader.reads_ofExcept (hframed.instruction_eq_ok index)
  exact (Record.reads_bytesWith hfits reserved index).then_nil hanswer

end Instruction

/-!
### Programs
-/

namespace Program

/-- The header with some flags. -/
def headerWith (flags : UInt16) (records inputs outputs : Nat) : Bytes :=
  magic ++ (Field.u16 version).bytes ++ (Field.u16 flags).bytes ++
    (Field.u32 (UInt32.ofNat records)).bytes ++
    (Field.u16 (UInt16.ofNat inputs)).bytes ++ (Field.u16 (UInt16.ofNat outputs)).bytes

/-- The lengths of a program fit their fields. -/
structure Fits (p : Program) : Prop where
  instructions : p.instructions.length < UInt32.size
  inputs : p.inputs.length ≤ 65535
  outputs : p.outputs.length ≤ 65535
  ranks : ∀ i ∈ p.inputs, i.type.rank ≤ 255

/-- The bytes lay out the program: header, inputs, output identifiers and records, and nothing
behind them. -/
def Written (p : Program) (bytes : Bytes) : Prop :=
  p.Fits ∧ ∃ flags records, List.Forall₂ Instruction.Written p.instructions records ∧
    bytes = headerWith flags p.instructions.length p.inputs.length p.outputs.length ++
      p.inputs.flatMap Input.bytes ++ identifierBytes p.outputs ++ records.flatten

lemma readInstructions_of_written {instructions : List Instruction} {records : List Bytes}
    (h : List.Forall₂ Instruction.Written instructions records) (index n : Nat)
    (seen : List Instruction) (offset : Nat) (rest : Bytes) :
    readInstructions index (instructions.length + n) seen ⟨offset, records.flatten ++ rest⟩ =
      readInstructions (index + instructions.length) n (instructions.reverse ++ seen)
        ⟨offset + records.flatten.length, rest⟩ := by
  induction h generalizing index seen offset with
  | nil =>
    rw [List.length_nil, Nat.zero_add]
    rfl
  | @cons i bytes instructions records hi _ ih =>
    have hcount : (i :: instructions).length + n = (instructions.length + n) + 1 := by
      rw [List.length_cons, Nat.add_right_comm]
    rw [hcount, readInstructions, List.flatten_cons, List.append_assoc, hi.reads]
    simp only
    rw [ih]
    simp only [List.length_cons, List.reverse_cons, List.append_assoc, List.singleton_append,
      List.length_append, Nat.add_assoc, Nat.add_comm 1]

lemma reads_records {instructions : List Instruction} {records : List Bytes}
    (h : List.Forall₂ Instruction.Written instructions records) :
    Reader.Reads (readInstructions 0 instructions.length []) records.flatten instructions := by
  intro offset rest
  have hread := readInstructions_of_written h 0 0 [] offset rest
  rw [Nat.add_zero] at hread
  rw [hread, readInstructions, List.append_nil, List.reverse_reverse]

/-- The number of records is read modulo the width of its field. -/
lemma reads_headerWith_wrapped (flags : UInt16) (records : Nat) {inputs outputs : Nat}
    (hinputs : inputs ≤ 65535) (houtputs : outputs ≤ 65535) :
    readHeader.Reads (headerWith flags records inputs outputs)
      ⟨(UInt32.ofNat records).toNat, inputs, outputs⟩ := by
  have hinputs' := UInt16.toNat_ofNat_of_le hinputs
  have houtputs' := UInt16.toNat_ofNat_of_le houtputs
  have hbytes : headerWith flags records inputs outputs = magic ++ ((Field.u16 version).bytes ++
      ((Field.u16 flags).bytes ++ ((Field.u32 (UInt32.ofNat records)).bytes ++
        ((Field.u16 (UInt16.ofNat inputs)).bytes ++ (Field.u16 (UInt16.ofNat outputs)).bytes)))) := by
    simp [headerWith]
  rw [hbytes]
  refine ((Reader.reads_take magic).within none).bind ?_
  refine (Reader.reads_ensure rfl _).bind_nil ?_
  refine ((Reader.reads_u16 version).within none).bind ?_
  refine (Reader.reads_ensure rfl _).bind_nil ?_
  refine ((Reader.reads_u16 flags).within none).bind ?_
  refine ((Reader.reads_u32 (UInt32.ofNat records)).within none).bind ?_
  refine ((Reader.reads_u16 (UInt16.ofNat inputs)).within none).bind ?_
  refine ((Reader.reads_u16 (UInt16.ofNat outputs)).within none).then_nil ?_
  rw [hinputs', houtputs']
  exact Reader.reads_pure _

lemma reads_headerWith (flags : UInt16) {records inputs outputs : Nat}
    (hrecords : records < UInt32.size) (hinputs : inputs ≤ 65535) (houtputs : outputs ≤ 65535) :
    readHeader.Reads (headerWith flags records inputs outputs) ⟨records, inputs, outputs⟩ := by
  have hread := reads_headerWith_wrapped flags records hinputs houtputs
  rwa [UInt32.toNat_ofNat_of_lt' hrecords] at hread

lemma Input.reads_bytes {i : Input} (hrank : i.type.rank ≤ 255) : Input.read.Reads i.bytes i := by
  refine ((Reader.reads_u32 i.id).within none).bind ?_
  exact ((TensorType.reads_bytes hrank).withError _).then_nil (Reader.reads_pure i)

lemma Written.reads {p : Program} {bytes : Bytes} (h : p.Written bytes) :
    read.Reads bytes p := by
  obtain ⟨hfits, flags, records, hrecords, rfl⟩ := h
  have hbindings := Reader.reads_times p.inputs fun i hi => Input.reads_bytes (hfits.ranks i hi)
  have hidentifiers := (Reader.reads_u32s p.outputs).within none
  rw [List.append_assoc, List.append_assoc]
  refine (reads_headerWith flags hfits.instructions hfits.inputs hfits.outputs).bind ?_
  refine hbindings.bind (hidentifiers.bind ?_)
  exact (reads_records hrecords).then_nil (Reader.reads_pure p)

end Program

end TensorMachine
