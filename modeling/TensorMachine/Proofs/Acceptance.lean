import TensorMachine.Proofs.Layouts
import TensorMachine.Proofs.Steps

/-!
# Accepted byte strings

What is read as a program is a layout of it. Each part of a program stands in front of what is read
after it, so that the layout is put together from the front; the parameters of a record are read
from a window of their own, of which the bytes that are left over belong to the record. Together
with the reading of layouts this tells which byte strings are accepted.
-/

namespace TensorMachine

lemma TensorType.rest_of_read {c c' : Cursor} {t : TensorType} (h : read c = .ok (t, c')) :
    t.rank ≤ 255 ∧ c.rest = t.bytes ++ c'.rest := by
  obtain ⟨code, c₁, hcode, h⟩ := Reader.bind_eq_ok_iff.mp h
  obtain ⟨element, c₂, helement, h⟩ := Reader.bind_eq_ok_iff.mp h
  obtain ⟨rank, c₃, hrank, h⟩ := Reader.bind_eq_ok_iff.mp h
  obtain ⟨dims, c₄, hdims, h⟩ := Reader.bind_eq_ok_iff.mp h
  obtain ⟨rfl, rfl⟩ := Reader.pure_eq_ok_iff.mp h
  obtain ⟨hknown, rfl⟩ := Reader.ofOption_eq_ok_iff.mp helement
  obtain ⟨hlength, hrest⟩ := Reader.rest_of_u32s (Reader.withError_eq_ok_iff.mp hdims)
  have hrankLt := rank.toNat_lt
  refine ⟨by simp only [TensorType.rank, hlength]; omega, ?_⟩
  rw [Reader.rest_of_u8 (Reader.withError_eq_ok_iff.mp hcode),
    Reader.rest_of_u8 (Reader.withError_eq_ok_iff.mp hrank), hrest]
  simp [bytes, TensorType.rank, hlength, ElementType.code_of_ofCode? hknown]

/-!
### Records
-/

namespace Record

lemma rest_of_read {index : Nat} {c c' : Cursor} {r : Record} (h : read index c = .ok (r, c')) :
    r.Fits ∧ ∃ reserved, c.rest = r.bytesWith reserved ++ c'.rest := by
  obtain ⟨tag, c₁, htag, h⟩ := Reader.bind_eq_ok_iff.mp h
  obtain ⟨inputCount, c₂, hinputCount, h⟩ := Reader.bind_eq_ok_iff.mp h
  obtain ⟨outputCount, c₃, houtputCount, h⟩ := Reader.bind_eq_ok_iff.mp h
  obtain ⟨reserved, c₄, hreserved, h⟩ := Reader.bind_eq_ok_iff.mp h
  obtain ⟨paramCount, c₅, hparamCount, h⟩ := Reader.bind_eq_ok_iff.mp h
  obtain ⟨opcode, c₆, hopcode, h⟩ := Reader.bind_eq_ok_iff.mp h
  obtain ⟨inputs, c₇, hinputs, h⟩ := Reader.bind_eq_ok_iff.mp h
  obtain ⟨outputs, c₈, houtputs, h⟩ := Reader.bind_eq_ok_iff.mp h
  obtain ⟨params, c₉, hparams, h⟩ := Reader.bind_eq_ok_iff.mp h
  obtain ⟨rfl, rfl⟩ := Reader.pure_eq_ok_iff.mp h
  obtain ⟨hknown, rfl⟩ := Reader.ofOption_eq_ok_iff.mp hopcode
  obtain ⟨hinputsLength, hinputs⟩ := Reader.rest_of_u32s (Reader.within_eq_ok_iff.mp hinputs)
  obtain ⟨houtputsLength, houtputs⟩ := Reader.rest_of_u32s (Reader.within_eq_ok_iff.mp houtputs)
  obtain ⟨hparamsLength, hparams⟩ := Reader.rest_of_take (Reader.within_eq_ok_iff.mp hparams)
  have hinputLt := inputCount.toNat_lt
  have houtputLt := outputCount.toNat_lt
  have hparamLt := paramCount.toNat_lt
  refine ⟨⟨by simp only; omega, by simp only; omega, by simp only; omega⟩, reserved, ?_⟩
  rw [Reader.rest_of_u8 (Reader.within_eq_ok_iff.mp htag),
    Reader.rest_of_u8 (Reader.within_eq_ok_iff.mp hinputCount),
    Reader.rest_of_u8 (Reader.within_eq_ok_iff.mp houtputCount),
    Reader.rest_of_u8 (Reader.within_eq_ok_iff.mp hreserved),
    Reader.rest_of_u16 (Reader.within_eq_ok_iff.mp hparamCount), hinputs, houtputs, hparams]
  simp [bytesWith, identifierBytes, hinputsLength, houtputsLength, hparamsLength,
    Opcode.tag_of_ofTag? hknown]

lemma readParams_eq_ok {α : Type} {r : Record} {reader : Reader DecodeError α} {a : α}
    (h : r.readParams reader = .ok a) : ∃ c, reader (.start r.params) = .ok (a, c) := by
  unfold readParams at h
  split at h
  · next hread =>
    cases h
    exact ⟨_, hread⟩
  · cases h

lemma params_of_allocationParams {index : Nat} {params : Bytes} {residence : Residence}
    {type : TensorType} {c : Cursor}
    (h : allocationParams index (.start params) = .ok ((residence, type), c)) :
    type.rank ≤ 255 ∧ type.byteSize? ≠ none ∧ params = residence.code :: type.bytes ++ c.rest := by
  obtain ⟨code, c₁, hcode, h⟩ := Reader.bind_eq_ok_iff.mp h
  obtain ⟨side, c₂, hside, h⟩ := Reader.bind_eq_ok_iff.mp h
  obtain ⟨found, c₃, htype, h⟩ := Reader.bind_eq_ok_iff.mp h
  obtain ⟨_, c₄, hsize, h⟩ := Reader.bind_eq_ok_iff.mp h
  obtain ⟨hfound, rfl⟩ := Reader.pure_eq_ok_iff.mp h
  cases hfound
  obtain ⟨hknown, rfl⟩ := Reader.ofOption_eq_ok_iff.mp hside
  obtain ⟨haddressable, rfl⟩ := Reader.ensure_eq_ok_iff.mp hsize
  obtain ⟨hrank, hrest⟩ := TensorType.rest_of_read (Reader.withError_eq_ok_iff.mp htype)
  refine ⟨hrank, haddressable, ?_⟩
  have hparams := Reader.rest_of_u8 (Reader.withError_eq_ok_iff.mp hcode)
  rw [hrest, ← Residence.code_of_ofCode? hknown] at hparams
  exact hparams

lemma params_of_forceParam {index : Nat} {params : Bytes} {force : Bool} {c : Cursor}
    (h : forceParam index (.start params) = .ok (force, c)) :
    params = (if force then 1 else 0) :: c.rest := by
  obtain ⟨value, c₁, hvalue, h⟩ := Reader.bind_eq_ok_iff.mp h
  obtain ⟨hflag, rfl⟩ := Reader.ofOption_eq_ok_iff.mp h
  rw [byte_of_flag? hflag]
  exact Reader.rest_of_u8 (Reader.withError_eq_ok_iff.mp hvalue)

lemma params_of_kernelParam {index : Nat} {params : Bytes} {kernel : Kernel} {c : Cursor}
    (h : kernelParam index (.start params) = .ok (kernel, c)) :
    params = kernel.code :: c.rest := by
  obtain ⟨code, c₁, hcode, h⟩ := Reader.bind_eq_ok_iff.mp h
  obtain ⟨hkernel, rfl⟩ := Reader.ofOption_eq_ok_iff.mp h
  rw [Kernel.code_of_ofCode? hkernel]
  exact Reader.rest_of_u8 (Reader.withError_eq_ok_iff.mp hcode)

end Record

/-!
### Instructions
-/

namespace Instruction

lemma framed_of_transfer {index : Nat} (destination : Residence) {inputs outputs : List TensorId}
    {params : Bytes} {i : Instruction}
    (h : Record.transfer index ⟨.transferTo destination, inputs, outputs, params⟩ destination =
      .ok i) : i.Framed ⟨.transferTo destination, inputs, outputs, params⟩ := by
  unfold Record.transfer at h
  split at h
  · next input hinputs =>
    cases hinputs
    split at h
    · next target htarget =>
      cases h
      match outputs, htarget with
      | [], htarget =>
        cases htarget
        exact .inPlace destination input params
      | [output], htarget =>
        simp only [Record.transferTarget?, Option.some.injEq] at htarget
        split at htarget
        · next heq =>
          subst htarget heq
          exact .ontoItself destination output params
        · next hne =>
          subst htarget
          exact .renamed destination hne params
    · cases h
  · cases h

lemma framed_of_instruction {index : Nat} {r : Record} {i : Instruction}
    (h : r.instruction index = .ok i) : i.Framed r := by
  obtain ⟨opcode, inputs, outputs, params⟩ := r
  unfold Record.instruction at h
  cases opcode with
  | allocate =>
    simp only at h
    split at h
    · obtain ⟨⟨residence, type⟩, hread, hresult⟩ := Except.bind_eq_ok_iff.mp h
      obtain ⟨c, hparams⟩ := Record.readParams_eq_ok hread
      obtain ⟨hrank, hsize, hbytes⟩ := Record.params_of_allocationParams hparams
      cases hresult
      subst hbytes
      exact .allocate _ residence c.rest hrank hsize
    · cases h
    · cases h
  | toDevice => exact framed_of_transfer .device h
  | fromDevice => exact framed_of_transfer .host h
  | deallocate =>
    simp only at h
    split at h
    · obtain ⟨force, hread, hresult⟩ := Except.bind_eq_ok_iff.mp h
      obtain ⟨c, hparams⟩ := Record.readParams_eq_ok hread
      have hbytes := Record.params_of_forceParam hparams
      cases hresult
      subst hbytes
      exact .deallocate _ force c.rest
    · cases h
    · cases h
  | compute =>
    simp only at h
    split at h
    · cases h
    · next output hne =>
      obtain ⟨kernel, hread, hresult⟩ := Except.bind_eq_ok_iff.mp h
      obtain ⟨c, hparams⟩ := Record.readParams_eq_ok hread
      have hbytes := Record.params_of_kernelParam hparams
      cases hresult
      subst hbytes
      exact .compute kernel (fun hnil => hne hnil) output c.rest
    · cases h

lemma written_of_read {index : Nat} {c c' : Cursor} {i : Instruction}
    (h : read index c = .ok (i, c')) : ∃ bytes, i.Written bytes ∧ c.rest = bytes ++ c'.rest := by
  obtain ⟨r, c₁, hrecord, h⟩ := Reader.bind_eq_ok_iff.mp h
  obtain ⟨hanswer, rfl⟩ := Reader.ofExcept_eq_ok_iff.mp h
  obtain ⟨hfits, reserved, hrest⟩ := Record.rest_of_read hrecord
  exact ⟨r.bytesWith reserved, ⟨r, reserved, framed_of_instruction hanswer, hfits, rfl⟩, hrest⟩

end Instruction

/-!
### Programs
-/

namespace Program

lemma written_of_readInstructions {index n : Nat} {seen found : List Instruction} {c c' : Cursor}
    (h : readInstructions index n seen c = .ok (found, c')) :
    ∃ instructions records, found = seen.reverse ++ instructions ∧ instructions.length = n ∧
      List.Forall₂ Instruction.Written instructions records ∧
        c.rest = records.flatten ++ c'.rest := by
  induction n generalizing index seen c with
  | zero =>
    cases h
    exact ⟨[], [], by simp, rfl, .nil, rfl⟩
  | succ n ih =>
    rw [readInstructions] at h
    split at h
    · next i c₁ hi =>
      obtain ⟨bytes, hwritten, hbytes⟩ := Instruction.written_of_read hi
      obtain ⟨instructions, records, hfound, hlength, hrecords, hrest⟩ := ih h
      refine ⟨i :: instructions, bytes :: records, ?_, by simp [hlength], .cons hwritten hrecords, ?_⟩
      · simp [hfound]
      · rw [hbytes, hrest, List.flatten_cons, List.append_assoc]
    · cases h

lemma rest_of_readHeader {c c' : Cursor} {counts : Counts} (h : readHeader c = .ok (counts, c')) :
    counts.records < UInt32.size ∧ counts.inputs ≤ 65535 ∧ counts.outputs ≤ 65535 ∧
      ∃ flags, c.rest =
        headerWith flags counts.records counts.inputs counts.outputs ++ c'.rest := by
  obtain ⟨found, c₁, hfound, h⟩ := Reader.bind_eq_ok_iff.mp h
  obtain ⟨_, c₂, hmagic, h⟩ := Reader.bind_eq_ok_iff.mp h
  obtain ⟨foundVersion, c₃, hfoundVersion, h⟩ := Reader.bind_eq_ok_iff.mp h
  obtain ⟨_, c₄, hversion, h⟩ := Reader.bind_eq_ok_iff.mp h
  obtain ⟨flags, c₅, hflags, h⟩ := Reader.bind_eq_ok_iff.mp h
  obtain ⟨records, c₆, hrecords, h⟩ := Reader.bind_eq_ok_iff.mp h
  obtain ⟨inputs, c₇, hinputs, h⟩ := Reader.bind_eq_ok_iff.mp h
  obtain ⟨outputs, c₈, houtputs, h⟩ := Reader.bind_eq_ok_iff.mp h
  obtain ⟨rfl, rfl⟩ := Reader.pure_eq_ok_iff.mp h
  obtain ⟨rfl, rfl⟩ := Reader.ensure_eq_ok_iff.mp hmagic
  obtain ⟨rfl, rfl⟩ := Reader.ensure_eq_ok_iff.mp hversion
  have hinputsLt := inputs.toNat_lt
  have houtputsLt := outputs.toNat_lt
  refine ⟨records.toNat_lt, by simp only; omega, by simp only; omega, flags, ?_⟩
  rw [(Reader.rest_of_take (Reader.within_eq_ok_iff.mp hfound)).2,
    Reader.rest_of_u16 (Reader.within_eq_ok_iff.mp hfoundVersion),
    Reader.rest_of_u16 (Reader.within_eq_ok_iff.mp hflags),
    Reader.rest_of_u32 (Reader.within_eq_ok_iff.mp hrecords),
    Reader.rest_of_u16 (Reader.within_eq_ok_iff.mp hinputs),
    Reader.rest_of_u16 (Reader.within_eq_ok_iff.mp houtputs)]
  simp [headerWith]

lemma Input.rest_of_read {c c' : Cursor} {i : Input} (h : read c = .ok (i, c')) :
    i.type.rank ≤ 255 ∧ c.rest = i.bytes ++ c'.rest := by
  obtain ⟨id, c₁, hid, h⟩ := Reader.bind_eq_ok_iff.mp h
  obtain ⟨type, c₂, htype, h⟩ := Reader.bind_eq_ok_iff.mp h
  obtain ⟨rfl, rfl⟩ := Reader.pure_eq_ok_iff.mp h
  obtain ⟨hrank, hrest⟩ := TensorType.rest_of_read (Reader.withError_eq_ok_iff.mp htype)
  refine ⟨hrank, ?_⟩
  rw [Reader.rest_of_u32 (Reader.within_eq_ok_iff.mp hid), hrest, Input.bytes, List.append_assoc]

lemma written_of_read {c c' : Cursor} {p : Program} (h : read c = .ok (p, c')) :
    ∃ bytes, p.Written bytes ∧ c.rest = bytes ++ c'.rest := by
  obtain ⟨counts, c₁, hheader, h⟩ := Reader.bind_eq_ok_iff.mp h
  obtain ⟨inputs, c₂, hinputs, h⟩ := Reader.bind_eq_ok_iff.mp h
  obtain ⟨outputs, c₃, houtputs, h⟩ := Reader.bind_eq_ok_iff.mp h
  obtain ⟨instructions, c₄, hinstructions, h⟩ := Reader.bind_eq_ok_iff.mp h
  obtain ⟨rfl, rfl⟩ := Reader.pure_eq_ok_iff.mp h
  obtain ⟨hrecordsLt, hinputsLe, houtputsLe, flags, hrest⟩ := rest_of_readHeader hheader
  obtain ⟨hinputsLength, hranks, hinputsRest⟩ :=
    Reader.rest_of_times (fun i => i.type.rank ≤ 255) Input.rest_of_read hinputs
  obtain ⟨houtputsLength, houtputsRest⟩ :=
    Reader.rest_of_u32s (Reader.within_eq_ok_iff.mp houtputs)
  obtain ⟨found, records, rfl, hlength, hrecords, hrecordsRest⟩ :=
    written_of_readInstructions hinstructions
  refine ⟨_, ⟨⟨?_, ?_, ?_, hranks⟩, flags, records, hrecords, rfl⟩, ?_⟩
  · simpa [hlength] using hrecordsLt
  · simpa [hinputsLength] using hinputsLe
  · simpa [houtputsLength] using houtputsLe
  · rw [hrest, hinputsRest, houtputsRest, hrecordsRest]
    simp [hlength, hinputsLength, houtputsLength, identifierBytes]

/-- A byte string is accepted as a program exactly if it lays the program out. -/
theorem decode_eq_ok_iff (bytes : Bytes) (p : Program) :
    decode bytes = .ok p ↔ p.Written bytes := by
  constructor
  · intro h
    unfold decode at h
    split at h
    · cases h
    · next found c hread =>
      split at h
      · next hnothing =>
        cases h
        obtain ⟨front, hwritten, hrest⟩ := written_of_read hread
        have hnil : c.rest = [] := List.length_eq_zero_iff.mp hnothing
        rw [hnil, List.append_nil] at hrest
        change bytes = front at hrest
        rwa [hrest]
      · cases h
  · intro h
    rw [decode, h.reads.start]
    rfl

end Program

end TensorMachine
