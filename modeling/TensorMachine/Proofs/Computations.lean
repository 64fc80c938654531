import TensorMachine.Proofs.HostMemory
import TensorMachine.Proofs.IndexedLoops
import TensorMachine.Proofs.Sizes

/-!
# Computations on filled operands

The tensors of a host device have the size of their type. So operands that pass the checks of a
computation have the size of the result all together, the kernel has an answer, and the device
charges its length. With binary32 elements the size consists of whole elements, and all bytes of the
result are written.
-/

namespace TensorMachine

lemma TensorType.dvd_byteSize {type : TensorType} {size : Nat} (h : type.byteSize? = some size) :
    type.element.width ∣ size := by
  obtain ⟨rfl, -, -⟩ := byteSize?_eq_some_iff.mp h
  exact Nat.dvd_mul_left type.element.width type.elements

namespace HostDevice

variable {d : HostDevice} {kernel : Kernel} {operands : List HostTensor} {type : TensorType}
  {result : Bytes}

/-- The checks of a computation in front of those of its size. -/
def checkCompute (d : HostDevice) (kernel : Kernel) (operands : List HostTensor) :
    Except DeviceError TensorType := do
  d.checkOperands operands
  kernel.resultType (operands.map (·.type))

/-- What a computation answers whose checks pass, and the device that it leaves: it fails because it
was armed to fail or for lack of memory, or it charges the length of the result that it stores. -/
inductive Computed (d : HostDevice) (type : TensorType) (result : Bytes) :
    Except DeviceError HostTensor × HostDevice → Prop
  | armed (harmed : .compute ∈ d.armed) :
    Computed d type result
      (.error (.backend .compute), { d with armed := d.armed.erase .compute })
  | tooLarge (harmed : .compute ∉ d.armed) (hsize : d.maxAllocation < result.length) :
    Computed d type result (.error (.outOfMemory result.length d.maxAllocation), d)
  | full (harmed : .compute ∉ d.armed) (hsize : result.length ≤ d.maxAllocation)
    (hfull : d.memory.limit.toNat < d.memory.used.toNat + result.length) :
    Computed d type result
      (.error (.outOfMemory result.length (d.memory.limit.toNat - d.memory.used.toNat)), d)
  | stored {memory : Budget} (harmed : .compute ∉ d.armed) (hsize : result.length ≤ d.maxAllocation)
    (hlimit : memory.limit = d.memory.limit)
    (hused : memory.used.toNat = d.memory.used.toNat + result.length) :
    Computed d type result
      (.ok ⟨⟨d.nextSerial, type, .device⟩, result⟩,
        { d with
          memory := memory
          nextSerial := d.nextSerial + 1
          outstanding := d.nextSerial :: d.outstanding })

lemma prepareCompute_of_check {size : Nat} (hcheck : d.checkCompute kernel operands = .ok type)
    (hsize : type.byteSize? = some size) :
    d.prepareCompute kernel operands =
      (do
        d.checkAllocation size
        let memory ← d.memory.reserve size
        .ok (type, memory)) := by
  obtain ⟨_, hoperands, htype⟩ := Except.bind_eq_ok_iff.mp hcheck
  rw [prepareCompute, hoperands, htype]
  change (type.addressableSize >>= _) = _
  rw [TensorType.addressableSize_eq_ok_iff.mpr hsize]
  rfl

lemma compute_of_check_error {e : DeviceError}
    (hcheck : d.checkCompute kernel operands = .error e) (harmed : .compute ∉ d.armed) :
    d.compute kernel operands = (.error e, d) := by
  have hprepare : d.prepareCompute kernel operands = .error e := by
    rcases Except.bind_eq_error_iff.mp hcheck with hoperands | ⟨_, hoperands, htype⟩
    · rw [prepareCompute, hoperands]
      rfl
    · rw [prepareCompute, hoperands, htype]
      rfl
  rw [compute, fire?_of_not_mem harmed, hprepare]

lemma computed (hcheck : d.checkCompute kernel operands = .ok type)
    (hsize : type.byteSize? = some result.length)
    (hrun : kernel.run? (operands.map (·.bytes)) = some result) :
    d.Computed type result (d.compute kernel operands) := by
  unfold compute
  by_cases harmed : .compute ∈ d.armed
  · rw [fire?_of_mem harmed]
    exact .armed harmed
  rw [fire?_of_not_mem harmed, prepareCompute_of_check hcheck hsize, hrun]
  by_cases hlimit : result.length ≤ d.maxAllocation
  · rw [checkAllocation_eq_ok_iff.mpr hlimit]
    cases hreserve : d.memory.reserve result.length with
    | ok memory =>
      exact .stored harmed hlimit (Budget.limit_of_reserve hreserve)
        (Budget.used_of_reserve hreserve)
    | error e =>
      have hfull : ¬d.memory.used.toNat + result.length ≤ d.memory.limit.toNat := by
        intro hfit
        simp [Budget.reserve, hfit] at hreserve
      simp only [Budget.reserve, if_neg hfull] at hreserve
      cases hreserve
      exact .full harmed hlimit (Nat.not_le.mp hfull)
  · rw [checkAllocation, if_neg hlimit]
    exact .tooLarge harmed (Nat.not_le.mp hlimit)

variable {budget : UInt64} {maxAllocation : Nat} {tensors : List HostTensor}

/-- Filled operands that pass the checks have the size of the result. -/
lemma completes_of_check (hcheck : d.checkCompute kernel operands = .ok type)
    (hfilled : ∀ t ∈ operands, t.Filled) :
    ∃ result, type.byteSize? = some result.length ∧
      kernel.Completes (operands.map (·.bytes)) result.length result := by
  obtain ⟨_, -, htype⟩ := Except.bind_eq_ok_iff.mp hcheck
  obtain ⟨hcount, hsame, helement⟩ := Kernel.resultType_eq_ok_iff.mp htype
  obtain ⟨t, ht, rfl⟩ := List.mem_map.mp (Kernel.mem_of_resultType htype)
  have hsize : t.type.byteSize? = some t.bytes.length := hfilled t ht
  have hlengths : ∀ operand ∈ operands.map (·.bytes), operand.length = t.bytes.length := by
    intro operand hoperand
    obtain ⟨x, hx, rfl⟩ := List.mem_map.mp hoperand
    have hother : x.type.byteSize? = some x.bytes.length := hfilled x hx
    rw [hsame x.type (List.mem_map_of_mem hx), hsize] at hother
    exact (Option.some.inj hother).symm
  have hwhole : kernel ≠ .copy → Elements.size ∣ t.bytes.length := by
    intro hkernel
    have hwidth := TensorType.dvd_byteSize hsize
    rwa [helement.resolve_left hkernel] at hwidth
  have hcount : (operands.map (·.bytes)).length = kernel.arity := by
    rw [List.length_map, ← hcount, List.length_map]
  obtain ⟨result, hcompletes⟩ := Kernel.completes hcount hlengths hwhole
  exact ⟨result, hcompletes.length ▸ hsize, hcompletes.length ▸ hcompletes⟩

/-- A computation on handles of the device that fails a check answers with the cause and changes
nothing. One that passes the checks runs its kernel through on operands of the size of the result,
and the device charges the bytes that it stores. -/
theorem History.compute_exact {d : HostDevice} {tensors : List HostTensor}
    (h : History budget maxAllocation d tensors) (kernel : Kernel) {operands : List HostTensor}
    (hoperands : ∀ t ∈ operands, t ∈ tensors) :
    (∀ e, d.checkCompute kernel operands = .error e → .compute ∉ d.armed →
      d.compute kernel operands = (.error e, d)) ∧
    ∀ type, d.checkCompute kernel operands = .ok type →
      ∃ result, type.byteSize? = some result.length ∧
        kernel.Completes (operands.map (·.bytes)) result.length result ∧
        d.Computed type result (d.compute kernel operands) := by
  have hfilled : ∀ t ∈ operands, t.Filled := fun t ht =>
    (h.accounts.books.sized t (List.mem_append_left d.deferred (hoperands t ht))).1
  refine ⟨fun e hcheck harmed => compute_of_check_error hcheck harmed, fun type hcheck => ?_⟩
  obtain ⟨result, hsize, hcompletes⟩ := completes_of_check hcheck hfilled
  exact ⟨result, hsize, hcompletes, computed hcheck hsize hcompletes.run⟩

/-- A device with room for three numbers adds the two that it has stored, the second one first. -/
theorem History.compute_exact_add :
    let type : TensorType := ⟨.f32, [1]⟩
    let a : HostTensor := ⟨⟨1, type, .device⟩, [0, 0, 128, 63]⟩
    let b : HostTensor := ⟨⟨2, type, .device⟩, [0, 0, 0, 64]⟩
    let d := (((HostDevice.new 12 64).allocate type .device (some a.bytes)).2.allocate type .device
      (some b.bytes)).2
    History 12 64 d [b, a] ∧ (∀ t ∈ [b, a], t ∈ [b, a]) ∧ d.checkCompute .add [b, a] = .ok type ∧
      Kernel.Completes .add [b.bytes, a.bytes] 4 [0, 0, 64, 64] ∧
      (d.compute .add [b, a]).2.memory.used = 12 := by
  intro type a b d
  have hnew : History 12 64 (.new 12 64) [] := .new
  have h : History 12 64 d [b, a] :=
    (hnew.allocate type .device (some a.bytes)).allocate type .device (some b.bytes)
  have hcheck : d.checkCompute .add [b, a] = .ok type := by decide
  obtain ⟨result, -, hcompletes, -⟩ := (h.compute_exact .add fun t ht => ht).2 type hcheck
  have hrun : Kernel.run? .add [b.bytes, a.bytes] = some [0, 0, 64, 64] := by decide
  obtain rfl : result = [0, 0, 64, 64] := Option.some.inj (hcompletes.run.symm.trans hrun)
  exact ⟨h, fun t ht => ht, hcheck, hcompletes, by decide⟩

end HostDevice

end TensorMachine
