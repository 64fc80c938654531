import TensorMachine.Proofs.ForeignHandles
import TensorMachine.Proofs.HostAgreement
import TensorMachine.Proofs.Serials

/-!
# Failed calls of a host device

A call of a host device that fails has done nothing, but that a failure which was armed for it has
gone off. Releases are different: of a live handle they take the serial back in any case, and one
that then fails is owed. These laws hold of the devices that come out of any requests, since they
rest on what such devices keep: no call is armed twice, and no serial stands in two places.
-/

namespace TensorMachine

/-- The answer is not the error of a call that was armed to fail. -/
def Unarmed {α : Type} (x : Except DeviceError α) : Prop :=
  ∀ e, x = .error e → e.kind? ≠ some .backend

namespace Unarmed

variable {α β : Type}

lemma ok (a : α) : Unarmed (.ok a) := fun _ => nofun

lemma bind {x : Except DeviceError α} {k : α → Except DeviceError β} (h : Unarmed x)
    (hrest : ∀ a, Unarmed (k a)) : Unarmed (x >>= k) := by
  intro e hfails
  rcases Except.bind_eq_error_iff.mp hfails with hfirst | ⟨a, -, hlater⟩
  · exact h e hfirst
  · exact hrest a e hlater

lemma ite {c : Prop} [Decidable c] {a : α} {e : DeviceError} (he : e.kind? ≠ some .backend) :
    Unarmed (if c then .ok a else .error e) := by
  intro e' hfails
  split at hfails
  · cases hfails
  · cases hfails
    exact he

end Unarmed

lemma Budget.unarmed_reserve (b : Budget) (size : Nat) : Unarmed (b.reserve size) :=
  .ite nofun

lemma TensorType.unarmed_addressableSize (type : TensorType) : Unarmed type.addressableSize := by
  intro e h
  obtain ⟨-, rfl⟩ := addressableSize_eq_error h
  exact nofun

lemma Kernel.unarmed_resultType (k : Kernel) (types : List TensorType) :
    Unarmed (k.resultType types) := by
  intro e h
  rcases resultType_eq_error h with ⟨fault, rfl⟩ | ⟨element, rfl⟩
  · exact nofun
  · exact nofun

namespace HostDevice

variable {d : HostDevice}

/-!
### Checks
-/

lemma unarmed_charge (memory : Budget) (location : Residence) (size : Nat) :
    Unarmed (charge memory location size) := by
  cases location with
  | host => exact .ok memory
  | device => exact memory.unarmed_reserve size

lemma unarmed_moveMemory (memory : Budget) (destination : Residence) (size : Nat) :
    Unarmed (moveMemory memory destination size) := by
  cases destination with
  | host => exact .ok (memory.giveBack size)
  | device => exact memory.unarmed_reserve size

lemma unarmed_checkContents (type : TensorType) (size : Nat) (data? : Option Bytes) :
    Unarmed (checkContents type size data?) := by
  cases data? with
  | none => exact .ok ()
  | some data => exact .ite nofun

lemma unarmed_checkAllocation (d : HostDevice) (size : Nat) : Unarmed (d.checkAllocation size) :=
  .ite nofun

lemma unarmed_checkLive (d : HostDevice) (t : HostTensor) : Unarmed (d.checkLive t) :=
  .ite nofun

lemma unarmed_checkLocation (t : HostTensor) (expected : Residence) :
    Unarmed (checkLocation t expected) :=
  .ite nofun

lemma unarmed_checkOperands (d : HostDevice) (operands : List HostTensor) :
    Unarmed (d.checkOperands operands) := by
  intro e h
  obtain ⟨label, fault, rfl⟩ := checkOperands_error h
  exact nofun

lemma unarmed_prepare (d : HostDevice) (type : TensorType) (location : Residence)
    (data? : Option Bytes) : Unarmed (d.prepare type location data?) := by
  refine type.unarmed_addressableSize.bind fun size => ?_
  refine (unarmed_checkContents type size data?).bind fun _ => ?_
  refine (d.unarmed_checkAllocation size).bind fun _ => ?_
  exact (unarmed_charge d.memory location size).bind fun memory => .ok _

lemma unarmed_prepareTransfer (d : HostDevice) (destination : Residence) (t : HostTensor) :
    Unarmed (d.prepareTransfer destination t) := by
  refine (d.unarmed_checkLive t).bind fun _ => ?_
  refine (unarmed_checkLocation t destination.opposite).bind fun _ => ?_
  exact unarmed_moveMemory d.memory destination t.bytes.length

lemma unarmed_prepareCompute (d : HostDevice) (kernel : Kernel) (operands : List HostTensor) :
    Unarmed (d.prepareCompute kernel operands) := by
  refine (d.unarmed_checkOperands operands).bind fun _ => ?_
  refine (kernel.unarmed_resultType _).bind fun type => ?_
  refine type.unarmed_addressableSize.bind fun size => ?_
  refine (d.unarmed_checkAllocation size).bind fun _ => ?_
  exact (d.memory.unarmed_reserve size).bind fun memory => .ok _

lemma read_error {t : HostTensor} {e : DeviceError} (h : d.read t = .error e) :
    ∃ fault, e = .invalidHandle t.toTensorLabel fault := by
  rcases Except.bind_eq_error_iff.mp h with hlive | ⟨_, -, h⟩
  · exact ⟨_, checkLive_error hlive⟩
  rcases Except.bind_eq_error_iff.mp h with hside | ⟨_, -, h⟩
  · exact ⟨_, checkLocation_error hside⟩
  · cases h

/-!
### Armed failures
-/

lemma Refused.nodup_armed {α : Type} {d' : HostDevice} {call : DeviceCall}
    {check : Except DeviceError α} {e : DeviceError} (h : d.Refused call check e d')
    (harmed : d.armed.Nodup) : d'.armed.Nodup := by
  cases h with
  | armed => exact harmed.erase call
  | checked => exact harmed

lemma nodup_armed_serve (h : d.armed.Nodup) (request : Request) :
    (request.serve d).armed.Nodup := by
  cases request with
  | failNext call => exact h.insert
  | pin n => exact h
  | unpin n =>
    rcases unpin_outcome d n with ⟨-, heq⟩ | ⟨t, -, -, -, -, heq⟩ <;>
      exact (congrArg armed heq).symm ▸ h
  | allocate type location data? =>
    rcases allocate_outcome d type location data? with
      ⟨e, d', hrefused, hcall⟩ | ⟨bytes, memory, -, -, hcall⟩ <;> simp only [Request.serve, hcall]
    · exact hrefused.nodup_armed h
    · exact h
  | release t force =>
    rcases release_outcome d t force with
      ⟨-, hcall⟩ | ⟨-, ⟨-, hcall⟩ | ⟨-, -, -, hcall⟩ | ⟨-, -, hcall⟩⟩ <;>
      simp only [Request.serve, hcall]
    · exact h
    · exact h.erase .release
    · exact h
    · exact h
  | transfer destination t =>
    rcases transfer_outcome d destination t with
      ⟨e, d', hrefused, hcall⟩ | ⟨memory, -, -, hcall⟩ <;> simp only [Request.serve, hcall]
    · exact hrefused.nodup_armed h
    · exact h
  | compute kernel operands =>
    rcases compute_outcome d kernel operands with
      ⟨e, d', hrefused, hcall⟩ | ⟨type, memory, -, -, hcall⟩ <;> simp only [Request.serve, hcall]
    · exact hrefused.nodup_armed h
    · exact h

lemma nodup_armed_serveAll (h : d.armed.Nodup) (requests : List Request) :
    (d.serveAll requests).armed.Nodup := by
  induction requests generalizing d with
  | nil => exact h
  | cons request rest ih => exact ih (nodup_armed_serve h request)

/-!
### Failed calls
-/

/-- What a failed call leaves, other than a release: the device as it was, but for the failure that
was armed for the call and is now spent. -/
inductive Unmarked (d : HostDevice) (call : DeviceCall) : DeviceError → HostDevice → Prop
  | fired (harmed : call ∈ d.armed) (hspent : call ∉ d.armed.erase call) :
    Unmarked d call (.backend call) { d with armed := d.armed.erase call }
  | checked {e : DeviceError} (h : e.kind? ≠ some .backend) : Unmarked d call e d

/-- The device that owes the release of a tensor. -/
def owing (d : HostDevice) (t : HostTensor) : HostDevice :=
  { d with outstanding := d.outstanding.erase t.serial, deferred := d.deferred ++ [t] }

/-- The serial of the tensor is outstanding, and its release not yet owed. -/
structure Releasable (d : HostDevice) (t : HostTensor) : Prop where
  live : t.serial ∈ d.outstanding
  gone : t.serial ∉ d.outstanding.erase t.serial
  fresh : t.serial ∉ d.deferredSerials

/-- What a failed release leaves: the device as it was, when the handle is not one of its own, and
else the device that owes the release. -/
inductive Owed (d : HostDevice) (t : HostTensor) : DeviceError → HostDevice → Prop
  | dead (h : t.serial ∉ d.outstanding) : Owed d t (.invalidHandle t.toTensorLabel .notOwned) d
  | fired (ht : d.Releasable t) (harmed : DeviceCall.release ∈ d.armed)
    (hspent : DeviceCall.release ∉ d.armed.erase .release) :
    Owed d t (.backend .release) { d.owing t with armed := d.armed.erase .release }
  | pinned (ht : d.Releasable t) (hpinned : t.serial ∈ d.pins) :
    Owed d t (.pendingReferences t.serial) (d.owing t)

/-- All that the failed calls of a device leave. A failed transfer gives the handle back as it was,
and to read from a tensor does not touch the device. -/
structure FailsCleanly (d : HostDevice) : Prop where
  allocate : ∀ type location data? e, (d.allocate type location data?).1 = .error e →
    d.Unmarked .allocate e (d.allocate type location data?).2
  hostTensor : ∀ type data e, (d.hostTensor type data).1 = .error e →
    d.Unmarked .allocate e (d.hostTensor type data).2
  transfer : ∀ destination t e, (d.transfer destination t).1 = .error e →
    (d.transfer destination t).2.1 = t ∧
      d.Unmarked (transferCall destination) e (d.transfer destination t).2.2
  compute : ∀ kernel operands e, (d.compute kernel operands).1 = .error e →
    d.Unmarked .compute e (d.compute kernel operands).2
  read : ∀ t e, d.read t = .error e → ∃ fault, e = .invalidHandle t.toTensorLabel fault
  release : ∀ t force e, (d.release t force).1 = .error e → d.Owed t e (d.release t force).2

lemma Refused.unmarked {α : Type} {d' : HostDevice} {call : DeviceCall}
    {check : Except DeviceError α} {e : DeviceError} (h : d.Refused call check e d')
    (harmed : d.armed.Nodup) (hcheck : Unarmed check) :
    d.Unmarked call e d' := by
  cases h with
  | armed h => exact .fired h harmed.not_mem_erase
  | checked _ h => exact .checked (hcheck e h)

lemma Orderly.releasable (h : d.Orderly) {t : HostTensor} (hlive : t.serial ∈ d.outstanding) :
    d.Releasable t where
  live := hlive
  gone := h.nodup_outstanding.not_mem_erase
  fresh hdeferred := by
    have hdistinct := (List.nodup_append.mp h.distinct).1
    exact (List.nodup_append.mp hdistinct).2.2 _ hlive _ hdeferred rfl

lemma Orderly.owed (h : d.Orderly) (harmed : d.armed.Nodup) {t : HostTensor} {force : Bool}
    {e : DeviceError} (hfails : (d.release t force).1 = .error e) :
    d.Owed t e (d.release t force).2 := by
  rcases release_outcome d t force with
    ⟨hdead, hcall⟩ | ⟨hlive, ⟨hfires, hcall⟩ | ⟨-, -, hpinned, hcall⟩ | ⟨-, -, hcall⟩⟩ <;>
    rw [hcall] at hfails ⊢ <;> cases hfails
  · exact .dead hdead
  · exact .fired (h.releasable hlive) hfires harmed.not_mem_erase
  · exact .pinned (h.releasable hlive) hpinned

lemma Orderly.failsCleanly (h : d.Orderly) (harmed : d.armed.Nodup) : d.FailsCleanly := by
  have hallocate : ∀ type location data? e, (d.allocate type location data?).1 = .error e →
      d.Unmarked .allocate e (d.allocate type location data?).2 := by
    intro type location data? e hfails
    rcases allocate_outcome d type location data? with
      ⟨e, d', hrefused, hcall⟩ | ⟨bytes, memory, -, -, hcall⟩ <;>
      rw [hcall] at hfails ⊢ <;> cases hfails
    exact hrefused.unmarked harmed (d.unarmed_prepare type location data?)
  refine ⟨hallocate, fun type data => hallocate type .host (some data), ?_, ?_,
    fun _ _ => read_error, fun _ _ _ => h.owed harmed⟩
  · intro destination t e hfails
    rcases transfer_outcome d destination t with
      ⟨e, d', hrefused, hcall⟩ | ⟨memory, -, -, hcall⟩ <;>
      rw [hcall] at hfails ⊢ <;> cases hfails
    exact ⟨rfl, hrefused.unmarked harmed (d.unarmed_prepareTransfer destination t)⟩
  · intro kernel operands e hfails
    rcases compute_outcome d kernel operands with
      ⟨e, d', hrefused, hcall⟩ | ⟨type, memory, -, -, hcall⟩ <;>
      rw [hcall] at hfails ⊢ <;> cases hfails
    exact hrefused.unmarked harmed (d.unarmed_prepareCompute kernel operands)

/-- Whatever was asked of a host device before, and with whatever handles: a call that fails leaves
no mark but that an armed failure is spent, and a failed release of a live handle is owed. -/
theorem failed_calls (budget : UInt64) (maxAllocation : Nat) (requests : List Request) :
    ((new budget maxAllocation).serveAll requests).FailsCleanly :=
  ((orderly_new budget maxAllocation).serveAll requests).failsCleanly
    (nodup_armed_serveAll List.nodup_nil requests)

/-- A device with a pinned tensor of two bytes and a failure armed for computations. It lacks memory
for seven bytes more, a computation fails before its operands are looked at, and the release of the
tensor is owed. -/
theorem failed_calls_of_pinned :
    let t : HostTensor := ⟨⟨1, ⟨.u8, [2]⟩, .device⟩, [0, 0]⟩
    let d := (new 8 64).serveAll
      [.allocate ⟨.u8, [2]⟩ .device none, .pin 1, .failNext .compute]
    d.Unmarked .allocate (.outOfMemory 7 6) (d.allocate ⟨.u8, [7]⟩ .device none).2 ∧
      d.Unmarked .compute (.backend .compute)
        (d.compute .add [{ t with serial := 2 }, { t with serial := 2 }]).2 ∧
      d.Owed t (.pendingReferences 1) (d.release t false).2 := by
  intro t d
  have hfails : d.FailsCleanly := failed_calls 8 64 _
  exact ⟨hfails.allocate _ _ _ _ rfl, hfails.compute _ _ _ rfl, hfails.release _ _ _ rfl⟩

end HostDevice

end TensorMachine
