import TensorMachine.Device.Host
import TensorMachine.Proofs.Basics

/-!
# The outcomes of the calls of the host device

A call checks first and changes the device afterwards. So a refused call leaves the device as it
was, but for the armed failure that has fired, and a granted one tells the checks that it passed.
Here stand the answer and the device after each kind of call, with nothing left open.
-/

namespace TensorMachine

lemma TensorType.addressableSize_eq_ok_iff {type : TensorType} {size : Nat} :
    type.addressableSize = .ok size ↔ type.byteSize? = some size := by
  unfold addressableSize
  cases type.byteSize? <;> simp

/-- The contents of the tensor have the size of its type. -/
def HostTensor.Filled (t : HostTensor) : Prop := t.type.byteSize? = some t.bytes.length

namespace HostDevice

variable {d : HostDevice}

/-!
### Checks
-/

lemma fire?_of_mem {call : DeviceCall} (h : call ∈ d.armed) :
    d.fire? call = some { d with armed := d.armed.erase call } := if_pos h

lemma fire?_of_not_mem {call : DeviceCall} (h : call ∉ d.armed) : d.fire? call = none := if_neg h

lemma checkLive_eq_ok_iff {t : HostTensor} : d.checkLive t = .ok () ↔ t.serial ∈ d.outstanding := by
  by_cases h : t.serial ∈ d.outstanding <;> simp [checkLive, h]

lemma checkLocation_eq_ok_iff {t : HostTensor} {expected : Residence} :
    checkLocation t expected = .ok () ↔ t.location = expected := by
  by_cases h : t.location = expected <;> simp [checkLocation, h]

lemma checkLive_error {t : HostTensor} {e : DeviceError} (h : d.checkLive t = .error e) :
    e = .invalidHandle t.toTensorLabel .notOwned := by
  unfold checkLive at h
  split at h <;> cases h
  rfl

lemma checkLocation_error {t : HostTensor} {expected : Residence} {e : DeviceError}
    (h : checkLocation t expected = .error e) :
    e = .invalidHandle t.toTensorLabel (.notResident expected) := by
  unfold checkLocation at h
  split at h <;> cases h
  rfl

lemma checkAllocation_eq_ok_iff {size : Nat} :
    d.checkAllocation size = .ok () ↔ size ≤ d.maxAllocation := by
  by_cases h : size ≤ d.maxAllocation <;> simp [checkAllocation, h]

lemma checkContents_eq_ok_iff {type : TensorType} {size : Nat} {data? : Option Bytes} :
    checkContents type size data? = .ok () ↔ ∀ data ∈ data?, data.length = size := by
  cases data? with
  | none => simp [checkContents]
  | some data => by_cases h : data.length = size <;> simp [checkContents, h]

lemma checkOperands_eq_ok_iff {operands : List HostTensor} :
    d.checkOperands operands = .ok () ↔
      ∀ t ∈ operands, t.serial ∈ d.outstanding ∧ t.location = .device := by
  induction operands with
  | nil => simp [checkOperands]
  | cons t rest ih =>
    rw [List.forall_mem_cons, ← ih]
    constructor
    · intro h
      obtain ⟨_, hlive, h⟩ := Except.bind_eq_ok_iff.mp h
      obtain ⟨_, hside, h⟩ := Except.bind_eq_ok_iff.mp h
      exact ⟨⟨checkLive_eq_ok_iff.mp hlive, checkLocation_eq_ok_iff.mp hside⟩, h⟩
    · rintro ⟨⟨hlive, hside⟩, hrest⟩
      rw [checkOperands, checkLive_eq_ok_iff.mpr hlive, checkLocation_eq_ok_iff.mpr hside]
      exact hrest

/-- The contents that are made have the size of the type, which is within the limit. -/
lemma prepare_eq_ok {type : TensorType} {location : Residence} {data? : Option Bytes}
    {bytes : Bytes} {memory : Budget} (h : d.prepare type location data? = .ok (bytes, memory)) :
    type.byteSize? = some bytes.length ∧ bytes = data?.getD (List.replicate bytes.length 0) ∧
      bytes.length ≤ d.maxAllocation ∧ charge d.memory location bytes.length = .ok memory := by
  obtain ⟨size, hsize, h⟩ := Except.bind_eq_ok_iff.mp h
  obtain ⟨_, hcontents, h⟩ := Except.bind_eq_ok_iff.mp h
  obtain ⟨_, hlimit, h⟩ := Except.bind_eq_ok_iff.mp h
  obtain ⟨_, hcharge, h⟩ := Except.bind_eq_ok_iff.mp h
  cases h
  have hlength : (data?.getD (List.replicate size 0)).length = size := by
    cases data? with
    | none => exact List.length_replicate
    | some data => exact checkContents_eq_ok_iff.mp hcontents data rfl
  rw [hlength]
  exact ⟨TensorType.addressableSize_eq_ok_iff.mp hsize, rfl, checkAllocation_eq_ok_iff.mp hlimit,
    hcharge⟩

lemma prepareTransfer_eq_ok {destination : Residence} {t : HostTensor} {memory : Budget}
    (h : d.prepareTransfer destination t = .ok memory) :
    t.serial ∈ d.outstanding ∧ t.location = destination.opposite ∧
      moveMemory d.memory destination t.bytes.length = .ok memory := by
  obtain ⟨_, hlive, h⟩ := Except.bind_eq_ok_iff.mp h
  obtain ⟨_, hside, h⟩ := Except.bind_eq_ok_iff.mp h
  exact ⟨checkLive_eq_ok_iff.mp hlive, checkLocation_eq_ok_iff.mp hside, h⟩

lemma prepareCompute_eq_ok {kernel : Kernel} {operands : List HostTensor} {type : TensorType}
    {memory : Budget} (h : d.prepareCompute kernel operands = .ok (type, memory)) :
    (∀ t ∈ operands, t.serial ∈ d.outstanding ∧ t.location = .device) ∧
      kernel.resultType (operands.map (·.type)) = .ok type ∧
      ∃ size, type.byteSize? = some size ∧ size ≤ d.maxAllocation ∧
        d.memory.reserve size = .ok memory := by
  obtain ⟨_, hoperands, h⟩ := Except.bind_eq_ok_iff.mp h
  obtain ⟨found, htype, h⟩ := Except.bind_eq_ok_iff.mp h
  obtain ⟨size, hsize, h⟩ := Except.bind_eq_ok_iff.mp h
  obtain ⟨_, hlimit, h⟩ := Except.bind_eq_ok_iff.mp h
  obtain ⟨_, hreserve, h⟩ := Except.bind_eq_ok_iff.mp h
  cases h
  exact ⟨checkOperands_eq_ok_iff.mp hoperands, htype, size,
    TensorType.addressableSize_eq_ok_iff.mp hsize, checkAllocation_eq_ok_iff.mp hlimit, hreserve⟩

/-- A kernel that passes its check on filled operands has a result of the size of its type. -/
lemma run?_of_prepareCompute {kernel : Kernel} {operands : List HostTensor} {type : TensorType}
    {memory : Budget} (h : d.prepareCompute kernel operands = .ok (type, memory))
    (hfilled : ∀ t ∈ operands, t.Filled) :
    ∃ bytes, kernel.run? (operands.map (·.bytes)) = some bytes ∧
      type.byteSize? = some bytes.length ∧ bytes.length ≤ d.maxAllocation ∧
      d.memory.reserve bytes.length = .ok memory := by
  obtain ⟨-, htype, size, hsize, hlimit, hreserve⟩ := prepareCompute_eq_ok h
  obtain ⟨hcount, hsame, -⟩ := Kernel.resultType_eq_ok_iff.mp htype
  have hlengths : ∀ bytes ∈ operands.map (·.bytes), bytes.length = size := by
    intro bytes hbytes
    obtain ⟨t, ht, rfl⟩ := List.mem_map.mp hbytes
    have hlength : t.type.byteSize? = some t.bytes.length := hfilled t ht
    rw [hsame t.type (List.mem_map_of_mem ht), hsize] at hlength
    exact (Option.some.inj hlength).symm
  have hcount : (operands.map (·.bytes)).length = kernel.arity := by
    rw [List.length_map, ← hcount, List.length_map]
  obtain ⟨bytes, hrun, rfl⟩ := Kernel.run?_of_length hcount hlengths
  exact ⟨bytes, hrun, hsize, hlimit, hreserve⟩

/-!
### Calls
-/

/-- The error of a refused call and the device that it leaves: the call was armed to fail, or a
check refuses it. -/
inductive Refused {α : Type} (d : HostDevice) (call : DeviceCall) (check : Except DeviceError α) :
    DeviceError → HostDevice → Prop
  | armed (h : call ∈ d.armed) :
    Refused d call check (.backend call) { d with armed := d.armed.erase call }
  | checked {e : DeviceError} (harmed : call ∉ d.armed) (h : check = .error e) :
    Refused d call check e d

lemma allocate_outcome (d : HostDevice) (type : TensorType) (location : Residence)
    (data? : Option Bytes) :
    (∃ e d', d.Refused .allocate (d.prepare type location data?) e d' ∧
      d.allocate type location data? = (.error e, d')) ∨
    ∃ bytes memory, DeviceCall.allocate ∉ d.armed ∧
      d.prepare type location data? = .ok (bytes, memory) ∧
      d.allocate type location data? =
        (.ok (d.issue memory type location bytes).1, (d.issue memory type location bytes).2) := by
  unfold allocate
  by_cases harmed : DeviceCall.allocate ∈ d.armed
  · rw [fire?_of_mem harmed]
    exact .inl ⟨_, _, .armed harmed, rfl⟩
  · rw [fire?_of_not_mem harmed]
    cases hprepare : d.prepare type location data? with
    | error e => exact .inl ⟨e, d, .checked harmed rfl, rfl⟩
    | ok prepared => exact .inr ⟨prepared.1, prepared.2, harmed, rfl, rfl⟩

lemma compute_outcome (d : HostDevice) (kernel : Kernel) (operands : List HostTensor) :
    (∃ e d', d.Refused .compute (d.prepareCompute kernel operands) e d' ∧
      d.compute kernel operands = (.error e, d')) ∨
    ∃ type memory, DeviceCall.compute ∉ d.armed ∧
      d.prepareCompute kernel operands = .ok (type, memory) ∧
      d.compute kernel operands =
        (.ok (d.issue memory type .device ((kernel.run? (operands.map (·.bytes))).getD [])).1,
          (d.issue memory type .device ((kernel.run? (operands.map (·.bytes))).getD [])).2) := by
  unfold compute
  by_cases harmed : DeviceCall.compute ∈ d.armed
  · rw [fire?_of_mem harmed]
    exact .inl ⟨_, _, .armed harmed, rfl⟩
  · rw [fire?_of_not_mem harmed]
    cases hprepare : d.prepareCompute kernel operands with
    | error e => exact .inl ⟨e, d, .checked harmed rfl, rfl⟩
    | ok prepared => exact .inr ⟨prepared.1, prepared.2, harmed, rfl, rfl⟩

lemma transfer_outcome (d : HostDevice) (destination : Residence) (t : HostTensor) :
    (∃ e d', d.Refused (transferCall destination) (d.prepareTransfer destination t) e d' ∧
      d.transfer destination t = (.error e, t, d')) ∨
    ∃ memory, transferCall destination ∉ d.armed ∧
      d.prepareTransfer destination t = .ok memory ∧
      d.transfer destination t =
        (.ok (), { t with location := destination }, { d with memory := memory }) := by
  unfold transfer
  by_cases harmed : transferCall destination ∈ d.armed
  · rw [fire?_of_mem harmed]
    exact .inl ⟨_, _, .armed harmed, rfl⟩
  · rw [fire?_of_not_mem harmed]
    cases hprepare : d.prepareTransfer destination t with
    | error e => exact .inl ⟨e, d, .checked harmed rfl, rfl⟩
    | ok memory => exact .inr ⟨memory, harmed, rfl, rfl⟩

/-- A release is deferred when it was armed to fail or meets a pin. -/
lemma release_outcome (d : HostDevice) (t : HostTensor) (force : Bool) :
    (t.serial ∉ d.outstanding ∧
      d.release t force = (.error (.invalidHandle t.toTensorLabel .notOwned), d)) ∨
    t.serial ∈ d.outstanding ∧
      ((DeviceCall.release ∈ d.armed ∧
        d.release t force = (.error (.backend .release),
          { d with
            outstanding := d.outstanding.erase t.serial
            armed := d.armed.erase .release
            deferred := d.deferred ++ [t] })) ∨
      (DeviceCall.release ∉ d.armed ∧ force = false ∧ t.serial ∈ d.pins ∧
        d.release t force = (.error (.pendingReferences t.serial),
          { d with
            outstanding := d.outstanding.erase t.serial
            deferred := d.deferred ++ [t] })) ∨
      (DeviceCall.release ∉ d.armed ∧ (force = true ∨ t.serial ∉ d.pins) ∧
        d.release t force = (.ok (),
          { d with
            outstanding := d.outstanding.erase t.serial
            pins := d.pins.filter (· != t.serial)
            memory := reclaim d.memory t
            released := d.released ++ [t.serial] }))) := by
  unfold release
  by_cases hlive : t.serial ∈ d.outstanding
  · refine .inr ⟨hlive, ?_⟩
    rw [checkLive_eq_ok_iff.mpr hlive]
    by_cases harmed : DeviceCall.release ∈ d.armed
    · exact .inl ⟨harmed, by simp only [fire?, if_pos harmed]⟩
    · simp only [fire?, if_neg harmed]
      by_cases hpinned : force = false ∧ t.serial ∈ d.pins
      · exact .inr (.inl ⟨harmed, hpinned.1, hpinned.2, if_pos hpinned⟩)
      · have hfree : force = true ∨ t.serial ∉ d.pins := by
          by_contra hboth
          simp_all
        exact .inr (.inr ⟨harmed, hfree, if_neg hpinned⟩)
  · exact .inl ⟨hlive, by simp only [checkLive, if_neg hlive]⟩

/-- The last pin of a serial takes the deferred tensors of the serial along. -/
lemma unpin_outcome (d : HostDevice) (serial : Nat) :
    ((serial ∈ d.pins → serial ∉ d.pins.erase serial → ∀ t ∈ d.deferred, t.serial ≠ serial) ∧
      d.unpin serial = { d with pins := d.pins.erase serial }) ∨
    ∃ t ∈ d.deferred, t.serial = serial ∧ serial ∈ d.pins ∧ serial ∉ d.pins.erase serial ∧
      d.unpin serial =
        { d with
          pins := d.pins.erase serial
          deferred := d.deferred.filter (·.serial != serial)
          memory := reclaim d.memory t } := by
  simp only [unpin]
  split
  case isFalse hmore => exact .inl ⟨fun hin hout => absurd ⟨hin, hout⟩ hmore, rfl⟩
  case isTrue hlast =>
    cases hfind : d.deferred.find? (·.serial == serial) with
    | none => exact .inl ⟨fun _ _ => by simpa using hfind, rfl⟩
    | some t =>
      have hserial : t.serial = serial := by simpa using List.find?_some hfind
      exact .inr ⟨t, List.mem_of_find?_eq_some hfind, hserial, hlast.1, hlast.2, rfl⟩

end HostDevice

end TensorMachine
