import TensorMachine.Proofs.Acceptance
import TensorMachine.Proofs.Extension
import TensorMachine.Proofs.RoundTrip

/-!
# Canonical bytes

A layout of a program says more than the program does: flags, reserved bytes, parameter bytes that
no operation reads, and an output that repeats the input of a transfer in place. A byte string is
taken apart into these in one way only. What is encoded is the layout of the program that says
nothing more. It is never longer than the bytes from which the program was decoded, and encoding
what was decoded always works, since each refusal of the encoder is about a program that no bytes
are decoded to.
-/

namespace TensorMachine

/-!
### Records
-/

namespace Record

/-- The number of parameter bytes that the operation of the record reads. The third parameter byte
of an allocation is the rank of the type. -/
def neededParams (r : Record) : Nat :=
  match r.opcode with
  | .allocate => 3 + 4 * (r.params.getD 2 0).toNat
  | .toDevice | .fromDevice => 0
  | .deallocate | .compute => 1

/-- The record says nothing that its instruction does not say. -/
structure Plain (r : Record) : Prop where
  params : r.params.length = r.neededParams
  outputs : r.opcode = .toDevice ∨ r.opcode = .fromDevice →
    ∀ id, r.inputs = [id] → r.outputs ≠ [id]

lemma bytesWith_append_inj {r r' : Record} (hfits : r.Fits) (hfits' : r'.Fits)
    {reserved reserved' : UInt8} {rest rest' : Bytes}
    (h : r.bytesWith reserved ++ rest = r'.bytesWith reserved' ++ rest') :
    reserved = reserved' ∧ r = r' ∧ rest = rest' := by
  obtain ⟨hr, -, hrest⟩ := (reads_bytesWith hfits reserved 0).inj (reads_bytesWith hfits' _ 0) h
  refine ⟨?_, hr, hrest⟩
  simp only [bytesWith, List.cons_append, List.cons.injEq] at h
  exact h.2.2.2.1

lemma length_bytesWith (r : Record) (reserved : UInt8) : (r.bytesWith reserved).length =
    6 + 4 * r.inputs.length + 4 * r.outputs.length + r.params.length := by
  simp [bytesWith, identifierBytes, Field.bytes, List.length_flatMap]
  omega

end Record

namespace Instruction

/-- No record stands for an instruction that the encoder refuses. -/
lemma Framed.checkEncodable {i : Instruction} {r : Record} (h : i.Framed r) (hfits : r.Fits)
    (index : Nat) : i.checkEncodable index = .ok () := by
  cases h with
  | allocate output residence more hrank hsize => exact TensorType.checkRank_eq_ok_iff.mpr hrank
  | inPlace destination input more => rfl
  | ontoItself destination input more => rfl
  | renamed destination hne more => exact if_neg hne
  | deallocate input force more => rfl
  | compute kernel hne output more => exact if_pos hfits.inputs

lemma Framed.flaw? {i : Instruction} {r : Record} (h : i.Framed r) : i.flaw? = none := by
  cases h with
  | allocate output residence more hrank hsize => exact if_neg hsize
  | inPlace destination input more => rfl
  | ontoItself destination input more => rfl
  | renamed destination hne more => rfl
  | deallocate input force more => rfl
  | compute kernel hne output more => exact if_neg hne

lemma Framed.length_le {i : Instruction} {r : Record} (h : i.Framed r) (reserved : UInt8) :
    i.record.bytes.length ≤ (r.bytesWith reserved).length := by
  change (i.record.bytesWith 0).length ≤ _
  rw [Record.length_bytesWith, Record.length_bytesWith]
  cases h with
  | allocate | inPlace | ontoItself | renamed | deallocate | compute =>
    simp only [record, inputs, outputs, params, Target.ids, List.length_cons, List.length_append,
      List.length_nil]
    omega

lemma Framed.params_eq {i : Instruction} {r : Record} (h : i.Framed r) :
    ∃ more, r.params = i.params ++ more ∧ r.neededParams = i.params.length := by
  cases h with
  | @allocate output type residence more hrank hsize =>
    refine ⟨more, rfl, ?_⟩
    change 3 + 4 * (UInt8.ofNat type.rank).toNat = type.bytes.length + 1
    rw [UInt8.toNat_ofNat_of_le hrank, TensorType.length_bytes]
    omega
  | inPlace destination input more | ontoItself destination input more
  | renamed destination hne more => exact ⟨more, rfl, by cases destination <;> rfl⟩
  | deallocate input force more => exact ⟨more, rfl, rfl⟩
  | compute kernel hne output more => exact ⟨more, rfl, rfl⟩

lemma Framed.outputs_eq_iff {i : Instruction} {r : Record} (h : i.Framed r) :
    i.outputs = r.outputs ↔ (r.opcode = .toDevice ∨ r.opcode = .fromDevice →
      ∀ id, r.inputs = [id] → r.outputs ≠ [id]) := by
  cases h with
  | allocate | inPlace | deallocate | compute => simp [outputs, Target.ids]
  | ontoItself destination input more =>
    cases destination <;> simp [outputs, Target.ids, Opcode.transferTo]
  | renamed destination hne more =>
    simpa [outputs, Target.ids] using fun _ => hne

/-- Of the records that stand for an instruction, the one that is written is the plain one. -/
lemma Framed.record_eq_iff {i : Instruction} {r : Record} (h : i.Framed r) :
    i.record = r ↔ r.Plain := by
  obtain ⟨more, hparams, hneeded⟩ := h.params_eq
  have hmore : i.params = r.params ↔ r.params.length = r.neededParams := by
    rw [hneeded, hparams, List.length_append]
    simp
  have hframe : r.opcode = i.opcode ∧ r.inputs = i.inputs := by
    cases h <;> exact ⟨rfl, rfl⟩
  constructor
  · rintro rfl
    exact ⟨hmore.mp rfl, h.outputs_eq_iff.mp rfl⟩
  · intro hplain
    rw [record, ← hframe.1, ← hframe.2, hmore.mpr hplain.params,
      h.outputs_eq_iff.mpr hplain.outputs]

end Instruction

namespace Program

/-- A byte string taken apart: what the program says, the flags of the header, and the records with
their reserved bytes. -/
structure Layout where
  flags : UInt16
  inputs : List Input
  outputs : List TensorId
  records : List (UInt8 × Record)

/-- The bytes of records, each with its reserved byte. -/
def frameBytes (records : List (UInt8 × Record)) : Bytes :=
  records.flatMap fun x => x.2.bytesWith x.1

namespace Layout

def bytes (l : Layout) : Bytes :=
  headerWith l.flags l.records.length l.inputs.length l.outputs.length ++
    l.inputs.flatMap Input.bytes ++ identifierBytes l.outputs ++ frameBytes l.records

/-- The lengths of the layout fit their fields. -/
structure Fits (l : Layout) : Prop where
  records : l.records.length < UInt32.size
  inputs : l.inputs.length ≤ 65535
  outputs : l.outputs.length ≤ 65535
  ranks : ∀ i ∈ l.inputs, i.type.rank ≤ 255
  frames : ∀ x ∈ l.records, x.2.Fits

/-- The layout says nothing that its program does not say: flags and reserved bytes are zero, the
records have the parameter bytes that their operations read, and no transfer names its input as its
output. -/
structure Plain (l : Layout) : Prop where
  flags : l.flags = 0
  reserved : ∀ x ∈ l.records, x.1 = 0
  records : ∀ x ∈ l.records, x.2.Plain

end Layout

/-!
### A byte string has one layout
-/

/-- No record is empty, so that the bytes tell how many records there are. -/
lemma frameBytes_inj {records records' : List (UInt8 × Record)} (hfits : ∀ x ∈ records, x.2.Fits)
    (hfits' : ∀ x ∈ records', x.2.Fits) (h : frameBytes records = frameBytes records') :
    records = records' := by
  induction records generalizing records' with
  | nil =>
    cases records' with
    | nil => rfl
    | cons x' records' => cases h
  | cons x records ih =>
    cases records' with
    | nil => cases h
    | cons x' records' =>
      obtain ⟨hx, hrecords⟩ := List.forall_mem_cons.mp hfits
      obtain ⟨hx', hrecords'⟩ := List.forall_mem_cons.mp hfits'
      obtain ⟨hreserved, hrecord, hrest⟩ := Record.bytesWith_append_inj hx hx' h
      rw [Prod.ext hreserved hrecord, ih hrecords hrecords' hrest]

/-- The lengths of the layout fit their fields, save perhaps the number of records. -/
structure Layout.Bounded (l : Layout) : Prop where
  inputs : l.inputs.length ≤ 65535
  outputs : l.outputs.length ≤ 65535
  ranks : ∀ i ∈ l.inputs, i.type.rank ≤ 255
  frames : ∀ x ∈ l.records, x.2.Fits

lemma Layout.Fits.bounded {l : Layout} (h : l.Fits) : l.Bounded :=
  ⟨h.inputs, h.outputs, h.ranks, h.frames⟩

lemma Layout.Bounded.bytes_inj {l l' : Layout} (hl : l.Bounded) (hl' : l'.Bounded)
    (h : l.bytes = l'.bytes) : l = l' := by
  obtain ⟨flags, inputs, outputs, records⟩ := l
  obtain ⟨flags', inputs', outputs', records'⟩ := l'
  simp only [Layout.bytes, List.append_assoc] at h
  have hheader := reads_headerWith_wrapped flags records.length hl.inputs hl.outputs
  have hheader' := reads_headerWith_wrapped flags' records'.length hl'.inputs hl'.outputs
  obtain ⟨hcounts, hfront, hbody⟩ := hheader.inj hheader' h
  simp only [Counts.mk.injEq] at hcounts
  obtain ⟨hrecords, hinputs, houtputs⟩ := hcounts
  simp only [headerWith, UInt32.toNat_inj.mp hrecords, hinputs, houtputs, List.append_assoc,
    List.append_cancel_left_eq] at hfront
  obtain ⟨rfl, -, -⟩ := (Reader.reads_u16 flags).inj (Reader.reads_u16 flags') hfront
  have hbindings := Reader.reads_times inputs fun i hi => Input.reads_bytes (hl.ranks i hi)
  have hbindings' := Reader.reads_times inputs' fun i hi => Input.reads_bytes (hl'.ranks i hi)
  rw [← hinputs] at hbindings'
  obtain ⟨rfl, -, hbody⟩ := hbindings.inj hbindings' hbody
  have hids := Reader.reads_u32s outputs'
  rw [← houtputs] at hids
  obtain ⟨rfl, -, hframes⟩ := (Reader.reads_u32s outputs).inj hids hbody
  have hall : records = records' := frameBytes_inj hl.frames hl'.frames hframes
  rw [hall]

theorem Layout.bytes_inj {l l' : Layout} (hfits : l.Fits) (hfits' : l'.Fits)
    (h : l.bytes = l'.bytes) : l = l' := hfits.bounded.bytes_inj hfits'.bounded h

/-!
### The layouts of a program
-/

/-- The records stand for the instructions, one for each. -/
def Frames (instructions : List Instruction) (records : List (UInt8 × Record)) : Prop :=
  List.Forall₂ (fun i x => i.Framed x.2 ∧ x.2.Fits) instructions records

/-- The layout lays out the program. -/
structure LaidOut (p : Program) (l : Layout) : Prop where
  fits : p.Fits
  inputs : l.inputs = p.inputs
  outputs : l.outputs = p.outputs
  records : Frames p.instructions l.records

/-- The layout of a program that says nothing more than the program. -/
def layout (p : Program) : Layout :=
  ⟨0, p.inputs, p.outputs, p.instructions.map fun i => (0, i.record)⟩

lemma layout_bytes (p : Program) : p.layout.bytes = p.bytes := by
  rw [Layout.bytes, layout, List.length_map, frameBytes, List.flatMap_map]
  rfl

lemma Frames.records {instructions : List Instruction} {records : List (UInt8 × Record)}
    (h : Frames instructions records) :
    Frames instructions (instructions.map fun i => (0, i.record)) := by
  induction h with
  | nil => exact .nil
  | cons hi _ ih =>
    have hcheck := hi.1.checkEncodable hi.2 0
    exact .cons ⟨Instruction.framed_record hcheck hi.1.flaw?, Instruction.record_fits hcheck⟩ ih

lemma Frames.checkInstructions {instructions : List Instruction} {records : List (UInt8 × Record)}
    (h : Frames instructions records) (index : Nat) :
    checkInstructions index instructions = .ok () := by
  induction h generalizing index with
  | nil => rfl
  | cons hi _ ih =>
    rw [Program.checkInstructions, hi.1.checkEncodable hi.2]
    exact ih (index + 1)

lemma Frames.length_le {instructions : List Instruction} {records : List (UInt8 × Record)}
    (h : Frames instructions records) :
    (frameBytes (instructions.map fun i => (0, i.record))).length ≤ (frameBytes records).length := by
  induction h with
  | nil => exact Nat.le_refl _
  | @cons i x instructions records hi _ ih =>
    have hfirst := hi.1.length_le x.1
    simp only [frameBytes, List.map_cons, List.flatMap_cons, List.length_append] at ih ⊢
    exact Nat.add_le_add hfirst ih

lemma Frames.records_eq_iff {instructions : List Instruction} {records : List (UInt8 × Record)}
    (h : Frames instructions records) :
    (instructions.map fun i => (0, i.record)) = records ↔
      (∀ x ∈ records, x.1 = 0) ∧ ∀ x ∈ records, x.2.Plain := by
  induction h with
  | nil => simp
  | @cons i x instructions records hi _ ih =>
    rw [List.forall_mem_cons, List.forall_mem_cons, List.map_cons, List.cons.injEq, ih,
      Prod.ext_iff, hi.1.record_eq_iff, eq_comm]
    exact and_and_and_comm

lemma Frames.written {instructions : List Instruction} {records : List (UInt8 × Record)}
    (h : Frames instructions records) :
    List.Forall₂ Instruction.Written instructions (records.map fun x => x.2.bytesWith x.1) := by
  induction h with
  | nil => exact .nil
  | @cons i x instructions records hi _ ih => exact .cons ⟨x.2, x.1, hi.1, hi.2, rfl⟩ ih

lemma exists_frames {instructions : List Instruction} {written : List Bytes}
    (h : List.Forall₂ Instruction.Written instructions written) :
    ∃ records, Frames instructions records ∧ frameBytes records = written.flatten := by
  induction h with
  | nil => exact ⟨[], .nil, rfl⟩
  | @cons i bytes instructions written hi _ ih =>
    obtain ⟨r, reserved, hframed, hfits, rfl⟩ := hi
    obtain ⟨records, hframes, hbytes⟩ := ih
    refine ⟨(reserved, r) :: records, .cons ⟨hframed, hfits⟩ hframes, ?_⟩
    rw [List.flatten_cons, ← hbytes]
    rfl

lemma Frames.fits {instructions : List Instruction} {records : List (UInt8 × Record)}
    (h : Frames instructions records) : ∀ x ∈ records, x.2.Fits := by
  induction h with
  | nil => exact nofun
  | cons hi _ ih => exact List.forall_mem_cons.mpr ⟨hi.2, ih⟩

lemma Written.laidOut {p : Program} {bytes : Bytes} (h : p.Written bytes) :
    ∃ l, p.LaidOut l ∧ l.bytes = bytes := by
  obtain ⟨hfits, flags, written, hwritten, rfl⟩ := h
  obtain ⟨records, hframes, hbytes⟩ := exists_frames hwritten
  refine ⟨⟨flags, p.inputs, p.outputs, records⟩, ⟨hfits, rfl, rfl, hframes⟩, ?_⟩
  rw [Layout.bytes, hbytes, hframes.length_eq]

namespace LaidOut

variable {p : Program} {l : Layout}

lemma layout_fits (h : p.LaidOut l) : l.Fits where
  records := h.records.length_eq ▸ h.fits.instructions
  inputs := h.inputs ▸ h.fits.inputs
  outputs := h.outputs ▸ h.fits.outputs
  ranks := h.inputs ▸ h.fits.ranks
  frames := h.records.fits

lemma decode_eq_ok (h : p.LaidOut l) : decode l.bytes = .ok p := by
  have hwritten : p.Written l.bytes := by
    refine ⟨h.fits, l.flags, _, h.records.written, ?_⟩
    rw [Layout.bytes, h.records.length_eq, h.inputs, h.outputs, frameBytes,
      List.flatMap_def (l := l.records)]
  rw [decode, hwritten.reads.start]
  rfl

lemma layout (h : p.LaidOut l) : p.LaidOut p.layout :=
  ⟨h.fits, rfl, rfl, h.records.records⟩

lemma layout_eq_iff (h : p.LaidOut l) : p.layout = l ↔ l.Plain := by
  obtain ⟨flags, inputs, outputs, records⟩ := l
  obtain ⟨-, hinputs, houtputs, hframes⟩ := h
  have hrecords := hframes.records_eq_iff
  simp only at hinputs houtputs hrecords
  rw [Program.layout, Layout.mk.injEq, hrecords]
  constructor
  · rintro ⟨hflags, -, -, hzeros, hplains⟩
    exact ⟨hflags.symm, hzeros, hplains⟩
  · rintro ⟨hflags, hzeros, hplains⟩
    exact ⟨hflags.symm, hinputs.symm, houtputs.symm, hzeros, hplains⟩

lemma length_le (h : p.LaidOut l) : p.layout.bytes.length ≤ l.bytes.length := by
  have hframes := h.records.length_le
  have hlength := h.records.length_eq
  simp only [Layout.bytes, Program.layout, List.length_append, List.length_map, hlength,
    h.inputs, h.outputs]
  exact Nat.add_le_add_left hframes _

/-- None of the refusals of the encoder is about a program with a layout. -/
lemma encode_eq_ok (h : p.LaidOut l) : p.encode = .ok p.bytes := by
  have hinputs  := checkBindingCount_eq_ok_iff.mpr h.fits.inputs
  have houtputs  := checkBindingCount_eq_ok_iff.mpr h.fits.outputs
  have htypes := checkInputs_eq_ok_iff.mpr h.fits.ranks
  have hinstructions := h.records.checkInstructions 0
  have hcheck : p.checkEncodable = .ok () := by
    simp only [checkEncodable, hinputs, houtputs, htypes, hinstructions, bind, Except.bind]
  simp only [encode, hcheck, bind, Except.bind]

end LaidOut

lemma laidOut_of_decode {bytes : Bytes} {p : Program} (h : decode bytes = .ok p) :
    ∃ l, p.LaidOut l ∧ l.bytes = bytes := by
  obtain ⟨c, hread, hnothing⟩ := read_of_decode_ok h
  obtain ⟨front, hwritten, hrest⟩ := written_of_read hread
  rw [hnothing, List.append_nil] at hrest
  change bytes = front at hrest
  exact (hrest ▸ hwritten).laidOut

/-- What was decoded is encoded again, as the shortest bytes that it is decoded from. The bytes from
which it was decoded have exactly one layout, and they are the same bytes exactly if this layout
says no more than the program. -/
theorem encode_of_decode {bytes : Bytes} {p : Program} (h : decode bytes = .ok p) :
    ∃ canonical, p.encode = .ok canonical ∧ canonical.length ≤ bytes.length ∧
      decode canonical = .ok p ∧
      ∃ l : Layout, (∀ l' : Layout, l'.Fits ∧ l'.bytes = bytes ↔ l' = l) ∧
        (canonical = bytes ↔ l.Plain) := by
  obtain ⟨l, hl, rfl⟩ := laidOut_of_decode h
  have hlayout := hl.layout
  refine ⟨p.layout.bytes, ?_, hl.length_le, hlayout.decode_eq_ok, l, fun l' => ⟨?_, ?_⟩, ?_⟩
  · rw [layout_bytes]
    exact hl.encode_eq_ok
  · rintro ⟨hfits, hbytes⟩
    exact Layout.bytes_inj hfits hl.layout_fits hbytes
  · rintro rfl
    exact ⟨hl.layout_fits, rfl⟩
  · rw [← hl.layout_eq_iff]
    exact ⟨Layout.bytes_inj hlayout.layout_fits hl.layout_fits, fun heq => congrArg Layout.bytes heq⟩

/-- A transfer in place with flags, a reserved byte, an output and a parameter. -/
theorem encode_of_decode_redundant :
    let record : Record := ⟨.toDevice, [1], [1], [9]⟩
    let bytes := headerWith 3 1 0 0 ++ record.bytesWith 5
    let p : Program := ⟨[], [], [.transfer .device 1 .inPlace]⟩
    decode bytes = .ok p ∧ ∃ canonical, p.encode = .ok canonical ∧
      canonical.length ≤ bytes.length ∧ decode canonical = .ok p ∧ canonical ≠ bytes := by
  intro record bytes p
  have hdecode : decode bytes = .ok p := by decide
  obtain ⟨canonical, hencode, hle, hcanonical, l, hunique, hplain⟩ := encode_of_decode hdecode
  have hrecord : record.Fits := ⟨by decide, by decide, by decide⟩
  have hfits : (⟨3, [], [], [(5, record)]⟩ : Layout).Fits :=
    ⟨by decide, by decide, by decide, nofun, by simpa using hrecord⟩
  have hl := (hunique _).mp ⟨hfits, rfl⟩
  refine ⟨hdecode, canonical, hencode, hle, hcanonical, fun heq => ?_⟩
  have hflags := (hl ▸ hplain.mp heq).flags
  exact absurd hflags (by decide)

end Program

end TensorMachine
