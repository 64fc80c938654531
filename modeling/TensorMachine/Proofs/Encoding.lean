import TensorMachine.Proofs.Canonical
import Mathlib.Algebra.GroupWithZero.Nat

/-!
# What is encoded

A program is encoded exactly if it keeps within the limits of the layout. Otherwise the error is
the first of its violations, in the order in which the parts of the program are laid out. The bytes
have a length that is known in advance, and they tell which program was encoded. The last holds
without a reader: among the encoded programs are some that are read as malformed, and some with
more instructions than the header can count.
-/

namespace TensorMachine

/-!
### Limits
-/

/-- The instruction has a record: its type has at most 255 dimensions, its operands are at most
255, and it does not rename a tensor to itself. -/
def Instruction.WithinLimits : Instruction → Prop
  | allocate _ type _ => type.rank ≤ 255
  | transfer _ input target => target ≠ .renamed input
  | deallocate .. => True
  | compute _ inputs _ => inputs.length ≤ 255

/-- The program keeps within the limits of the layout. -/
structure Program.WithinLimits (p : Program) : Prop where
  inputCount : p.inputs.length ≤ 65535
  outputCount : p.outputs.length ≤ 65535
  inputs : ∀ i ∈ p.inputs, i.type.rank ≤ 255
  instructions : ∀ i ∈ p.instructions, i.WithinLimits

namespace EncodeError

/-- The violations of one limit: the error, if the limit is not kept. -/
def ofLimit (condition : Prop) [Decidable condition] (e : EncodeError) : List EncodeError :=
  if condition then [] else [e]

/-- The first of some errors is the one that is reported. -/
def firstOf : List EncodeError → Except EncodeError Unit
  | [] => .ok ()
  | e :: _ => .error e

lemma firstOf_append (errors errors' : List EncodeError) :
    firstOf (errors ++ errors') = firstOf errors >>= fun _ => firstOf errors' := by
  cases errors <;> rfl

lemma firstOf_ofLimit (condition : Prop) [Decidable condition] (e : EncodeError) :
    firstOf (ofLimit condition e) = if condition then .ok () else .error e := by
  by_cases h : condition <;> simp [ofLimit, firstOf, h]

lemma firstOf_eq_ok_iff {errors : List EncodeError} : firstOf errors = .ok () ↔ errors = [] := by
  cases errors <;> simp [firstOf]

lemma firstOf_eq_error_iff {errors : List EncodeError} {e : EncodeError} :
    firstOf errors = .error e ↔ errors.head? = some e := by
  cases errors <;> simp [firstOf]

@[simp] lemma ofLimit_eq_nil_iff {condition : Prop} [Decidable condition] {e : EncodeError} :
    ofLimit condition e = [] ↔ condition := by
  by_cases h : condition <;> simp [ofLimit, h]

end EncodeError

open EncodeError

def TensorType.violations (t : TensorType) : List EncodeError :=
  ofLimit (t.rank ≤ 255) (.tooManyDims t.rank)

/-- The violations of an instruction at a place in the program. -/
def Instruction.violations (index : Nat) : Instruction → List EncodeError
  | allocate _ type _ => type.violations
  | transfer _ input target => ofLimit (target ≠ .renamed input) (.selfTransfer index input)
  | deallocate .. => []
  | compute _ inputs _ => ofLimit (inputs.length ≤ 255) (.tooManyOperands index inputs.length)

lemma TensorType.checkRank_eq_firstOf (t : TensorType) : t.checkRank = firstOf t.violations :=
  (firstOf_ofLimit _ _).symm

namespace Instruction

lemma checkEncodable_eq_firstOf (index : Nat) (i : Instruction) :
    i.checkEncodable index = firstOf (i.violations index) := by
  cases i with
  | allocate output type residence => exact type.checkRank_eq_firstOf
  | transfer destination input target =>
    rw [violations, firstOf_ofLimit]
    cases target with
    | inPlace => rfl
    | renamed id =>
      by_cases h : id = input
      · simp [checkEncodable, h]
      · simp [checkEncodable, h]
  | deallocate input force => rfl
  | compute kernel inputs output => exact (firstOf_ofLimit _ _).symm

lemma violations_eq_nil_iff {index : Nat} {i : Instruction} :
    i.violations index = [] ↔ i.WithinLimits := by
  cases i with
  | deallocate input force => simp [violations, WithinLimits]
  | allocate | transfer | compute => exact ofLimit_eq_nil_iff

lemma checkEncodable_eq_ok_iff {index : Nat} {i : Instruction} :
    i.checkEncodable index = .ok () ↔ i.WithinLimits := by
  rw [checkEncodable_eq_firstOf, firstOf_eq_ok_iff, violations_eq_nil_iff]

end Instruction

namespace Program

/-- The violations of a number of bindings. -/
def bindingViolations (count : Nat) : List EncodeError :=
  ofLimit (count ≤ 65535) (.tooManyBindings count)

/-- The violations of instructions, the first of which stands at `index`. -/
def instructionViolations (index : Nat) (instructions : List Instruction) : List EncodeError :=
  (instructions.zipIdx index).flatMap fun x => x.1.violations x.2

/-- All that puts the program outside the limits of the layout, in the order of its parts. -/
def violations (p : Program) : List EncodeError :=
  bindingViolations p.inputs.length ++ bindingViolations p.outputs.length ++
    p.inputs.flatMap (fun i => i.type.violations) ++ instructionViolations 0 p.instructions

lemma checkInputs_eq_firstOf (inputs : List Input) :
    checkInputs inputs = firstOf (inputs.flatMap fun i => i.type.violations) := by
  induction inputs with
  | nil => rfl
  | cons i inputs ih =>
    rw [List.flatMap_cons, firstOf_append, ← TensorType.checkRank_eq_firstOf, ← ih, checkInputs]
    cases i.type.checkRank <;> rfl

lemma checkInstructions_eq_firstOf (index : Nat) (instructions : List Instruction) :
    checkInstructions index instructions = firstOf (instructionViolations index instructions) := by
  induction instructions generalizing index with
  | nil => rfl
  | cons i instructions ih =>
    rw [instructionViolations, List.zipIdx_cons, List.flatMap_cons, firstOf_append,
      ← Instruction.checkEncodable_eq_firstOf, ← instructionViolations, ← ih, checkInstructions]
    cases i.checkEncodable index <;> rfl

lemma checkEncodable_eq_firstOf (p : Program) : p.checkEncodable = firstOf p.violations := by
  rw [violations, firstOf_append, firstOf_append, firstOf_append, ← checkInputs_eq_firstOf,
    ← checkInstructions_eq_firstOf, bindingViolations, bindingViolations, firstOf_ofLimit,
    firstOf_ofLimit]
  simp only [checkEncodable, checkBindingCount, bind_assoc]

lemma instructionViolations_eq_nil_iff {index : Nat} {instructions : List Instruction} :
    instructionViolations index instructions = [] ↔ ∀ i ∈ instructions, i.WithinLimits := by
  induction instructions generalizing index with
  | nil => simp [instructionViolations]
  | cons i instructions ih =>
    rw [List.forall_mem_cons, ← ih, ← Instruction.violations_eq_nil_iff, instructionViolations,
      List.zipIdx_cons, List.flatMap_cons, List.append_eq_nil_iff]
    rfl

lemma violations_eq_nil_iff {p : Program} : p.violations = [] ↔ p.WithinLimits := by
  simp only [violations, bindingViolations, TensorType.violations, List.append_eq_nil_iff,
    List.flatMap_eq_nil_iff, ofLimit_eq_nil_iff, instructionViolations_eq_nil_iff]
  constructor
  · rintro ⟨⟨⟨hinputs, houtputs⟩, hranks⟩, hinstructions⟩
    exact ⟨hinputs, houtputs, hranks, hinstructions⟩
  · intro h
    exact ⟨⟨⟨h.inputCount, h.outputCount⟩, h.inputs⟩, h.instructions⟩

lemma encode_eq_ok_iff {p : Program} {bytes : Bytes} :
    p.encode = .ok bytes ↔ p.WithinLimits ∧ bytes = p.bytes := by
  rw [encode, Except.bind_eq_ok_iff, checkEncodable_eq_firstOf, ← violations_eq_nil_iff,
    ← firstOf_eq_ok_iff]
  constructor
  · rintro ⟨_, hcheck, hbytes⟩
    cases hbytes
    exact ⟨hcheck, rfl⟩
  · rintro ⟨hcheck, rfl⟩
    exact ⟨(), hcheck, rfl⟩

lemma encode_eq_error_iff {p : Program} {e : EncodeError} :
    p.encode = .error e ↔ p.violations.head? = some e := by
  rw [encode, Except.bind_eq_error_iff, checkEncodable_eq_firstOf, firstOf_eq_error_iff]
  simp

end Program

/-!
### Lengths
-/

lemma length_identifierBytes (ids : List TensorId) :
    (identifierBytes ids).length = 4 * ids.length := by
  simp [identifierBytes, Field.bytes, List.length_flatMap]
  omega

lemma Program.Input.length_bytes (i : Input) : i.bytes.length = 6 + 4 * i.type.rank := by
  rw [bytes, List.length_append, TensorType.length_bytes, Field.bytes, LittleEndian.length_split]
  omega

/-- The number of bytes of the record of an instruction. -/
def Instruction.encodedLength : Instruction → Nat
  | allocate _ type _ => 13 + 4 * type.rank
  | transfer _ _ .inPlace => 10
  | transfer _ _ (.renamed _) => 14
  | deallocate .. => 11
  | compute _ inputs _ => 11 + 4 * inputs.length

lemma Instruction.length_record_bytes (i : Instruction) :
    i.record.bytes.length = i.encodedLength := by
  change (i.record.bytesWith 0).length = _
  rw [Record.length_bytesWith]
  cases i with
  | allocate output type residence =>
    simp only [record, inputs, outputs, params, encodedLength, List.length_cons, List.length_nil,
      TensorType.length_bytes]
    omega
  | transfer destination input target => cases target <;> rfl
  | deallocate input force => rfl
  | compute kernel inputs output =>
    simp only [record, Instruction.inputs, outputs, params, encodedLength, List.length_cons,
      List.length_nil]
    omega

namespace Program

lemma length_headerBytes (records inputs outputs : Nat) :
    (headerBytes records inputs outputs).length = 16 := rfl

lemma length_bytes (p : Program) :
    p.bytes.length = 16 + (p.inputs.map fun i => 6 + 4 * i.type.rank).sum + 4 * p.outputs.length +
      (p.instructions.map Instruction.encodedLength).sum := by
  simp only [bytes, List.length_append, length_headerBytes, length_identifierBytes,
    List.length_flatMap, Input.length_bytes, Instruction.length_record_bytes]

/-- A program is encoded exactly if it keeps within the limits of the layout, and if not its first
violation is reported. The number of bytes is the sum of those of its parts. -/
theorem encode_limits (p : Program) :
    ((∃ bytes, p.encode = .ok bytes) ↔ p.WithinLimits) ∧
    (∀ e, p.encode = .error e ↔ p.violations.head? = some e) ∧
    ∀ bytes, p.encode = .ok bytes →
      bytes.length = 16 + (p.inputs.map fun i => 6 + 4 * i.type.rank).sum +
        4 * p.outputs.length + (p.instructions.map Instruction.encodedLength).sum := by
  refine ⟨?_, fun e => encode_eq_error_iff, fun bytes h => ?_⟩
  · simp [encode_eq_ok_iff]
  · rw [(encode_eq_ok_iff.mp h).2, length_bytes]

/-- A program that renames its second tensor to itself, and the program up to there. -/
theorem encode_limits_selfTransfer :
    let first : Instruction := .transfer .device 1 (.renamed 2)
    let second : Instruction := .transfer .host 2 (.renamed 2)
    let p : Program := ⟨[⟨1, ⟨.f32, [2, 4]⟩⟩], [2], [first, second, second]⟩
    let q : Program := ⟨p.inputs, p.outputs, [first]⟩
    (¬∃ bytes, p.encode = .ok bytes) ∧ p.encode = .error (.selfTransfer 1 2) ∧
      ∃ bytes, q.encode = .ok bytes ∧ bytes.length = 48 := by
  intro first second p q
  have hsecond : ¬p.WithinLimits := fun h => h.instructions second (by simp [p]) rfl
  have hq : q.encode = .ok q.bytes := by decide
  exact ⟨mt (encode_limits p).1.mp hsecond, ((encode_limits p).2.1 _).mpr (by decide),
    q.bytes, hq, (encode_limits q).2.2 _ hq⟩

end Program

/-!
### Injectivity
-/

lemma TensorType.bytes_inj {t t' : TensorType} (hrank : t.rank ≤ 255) (hrank' : t'.rank ≤ 255)
    (h : t.bytes = t'.bytes) : t = t' := by
  have h' : t.bytes ++ [] = t'.bytes ++ [] := by rw [h]
  exact ((reads_bytes hrank).inj (reads_bytes hrank') h').1

lemma Residence.code_inj {side side' : Residence} (h : side.code = side'.code) : side = side' := by
  have hcode := ofCode?_code side
  rw [h, ofCode?_code] at hcode
  exact (Option.some.inj hcode).symm

lemma Kernel.code_inj {kernel kernel' : Kernel} (h : kernel.code = kernel'.code) :
    kernel = kernel' := by
  have hcode := ofCode?_code kernel
  rw [h, ofCode?_code] at hcode
  exact (Option.some.inj hcode).symm

lemma Opcode.transferTo_inj {side side' : Residence} (h : transferTo side = transferTo side') :
    side = side' := by
  cases side <;> cases side' <;> first | rfl | cases h

lemma Target.ids_inj {target target' : Target} (h : target.ids = target'.ids) :
    target = target' := by
  cases target <;> cases target' <;> cases h <;> rfl

namespace Instruction

lemma record_inj {i i' : Instruction} (hi : i.WithinLimits) (hi' : i'.WithinLimits)
    (h : i.record = i'.record) : i = i' := by
  simp only [record, Record.mk.injEq] at h
  obtain ⟨hopcode, hinputs, houtputs, hparams⟩ := h
  cases i with
  | allocate output type residence =>
    cases i' with
    | allocate output' type' residence' =>
      simp only [outputs, params, List.cons.injEq, and_true] at houtputs hparams
      rw [houtputs, TensorType.bytes_inj hi hi' hparams.2, Residence.code_inj hparams.1]
    | transfer destination' => cases destination' <;> cases hopcode
    | deallocate | compute => cases hopcode
  | transfer destination input target =>
    cases i' with
    | transfer destination' input' target' =>
      simp only [Instruction.inputs, outputs, List.cons.injEq, and_true] at hinputs houtputs
      rw [hinputs, Opcode.transferTo_inj hopcode, Target.ids_inj houtputs]
    | allocate | deallocate | compute => cases destination <;> cases hopcode
  | deallocate input force =>
    cases i' with
    | deallocate input' force' =>
      simp only [Instruction.inputs, params, List.cons.injEq, and_true] at hinputs hparams
      have hforce : force = force' := by
        cases force <;> cases force' <;> first | rfl | cases hparams
      rw [hinputs, hforce]
    | transfer destination' => cases destination' <;> cases hopcode
    | allocate | compute => cases hopcode
  | compute kernel operands output =>
    cases i' with
    | compute kernel' operands' output' =>
      simp only [Instruction.inputs, outputs, params, List.cons.injEq, and_true]
        at hinputs houtputs hparams
      rw [hinputs, houtputs, Kernel.code_inj hparams]
    | transfer destination' => cases destination' <;> cases hopcode
    | allocate | deallocate => cases hopcode

end Instruction

namespace Program

lemma layout_bounded {p : Program} (h : p.WithinLimits) : p.layout.Bounded where
  inputs := h.inputCount
  outputs := h.outputCount
  ranks := h.inputs
  frames := by
    intro x hx
    obtain ⟨i, hi, rfl⟩ := List.mem_map.mp hx
    have hcheck : i.checkEncodable 0 = .ok () :=
      Instruction.checkEncodable_eq_ok_iff.mpr (h.instructions i hi)
    exact Instruction.record_fits hcheck

lemma records_inj {instructions instructions' : List Instruction}
    (h : ∀ i ∈ instructions, i.WithinLimits) (h' : ∀ i ∈ instructions', i.WithinLimits)
    (heq : instructions.map Instruction.record = instructions'.map Instruction.record) :
    instructions = instructions' := by
  induction instructions generalizing instructions' with
  | nil => exact (List.map_eq_nil_iff.mp heq.symm).symm
  | cons i instructions ih =>
    cases instructions' with
    | nil => cases heq
    | cons i' instructions' =>
      obtain ⟨hi, hrest⟩ := List.forall_mem_cons.mp h
      obtain ⟨hi', hrest'⟩ := List.forall_mem_cons.mp h'
      rw [List.map_cons, List.map_cons, List.cons.injEq] at heq
      rw [Instruction.record_inj hi hi' heq.1, ih hrest hrest' heq.2]

lemma bytes_inj {p q : Program} (hp : p.WithinLimits) (hq : q.WithinLimits)
    (h : p.bytes = q.bytes) : p = q := by
  rw [← layout_bytes, ← layout_bytes] at h
  have hlayout := (layout_bounded hp).bytes_inj (layout_bounded hq) h
  simp only [layout, Layout.mk.injEq, true_and] at hlayout
  obtain ⟨hinputs, houtputs, hrecords⟩ := hlayout
  have hmap := congrArg (List.map Prod.snd) hrecords
  rw [List.map_map, List.map_map] at hmap
  have hinstructions := records_inj hp.instructions hq.instructions hmap
  cases p
  cases q
  simp only [mk.injEq]
  exact ⟨hinputs, houtputs, hinstructions⟩

/-- Two programs are never encoded as the same bytes, not even where the bytes are those of no
program that can be read. -/
theorem encode_injective {p q : Program} {bytes : Bytes} (hp : p.encode = .ok bytes)
    (hq : q.encode = .ok bytes) : p = q := by
  obtain ⟨hwithin, hbytes⟩ := encode_eq_ok_iff.mp hp
  obtain ⟨hwithin', hbytes'⟩ := encode_eq_ok_iff.mp hq
  exact bytes_inj hwithin hwithin' (hbytes.symm.trans hbytes')

/-- Computations without inputs have bytes, although these are read as malformed. -/
theorem encode_injective_noInputs :
    let p : Program := ⟨[], [], [.compute .relu [] 2, .compute .relu [] 2]⟩
    let q : Program := ⟨[], [], List.replicate 2 (.compute .relu [] 2)⟩
    let record : Bytes := [5, 0, 1, 0, 1, 0, 2, 0, 0, 0, 2]
    let bytes := headerBytes 2 0 0 ++ record ++ record
    p.encode = .ok bytes ∧ q.encode = .ok bytes ∧ p = q ∧
      decode bytes = .error (.malformed 0 .noComputeInputs) := by
  intro p q record bytes
  have hp : p.encode = .ok bytes := by decide
  have hq : q.encode = .ok bytes := by decide
  exact ⟨hp, hq, encode_injective hp hq, by decide⟩

end Program

end TensorMachine
