import TensorMachine.Proofs.Following
import TensorMachine.Proofs.HostOutcomes

/-!
# Headroom

A host device looks at its two limits only to refuse a call for want of memory. So a device with
more memory does the same, call by call, until the first of two devices has none left. What follows
from this for runs is proved here: a run that did not end for want of memory is the same run on a
device with higher limits.
-/

namespace TensorMachine

namespace DeviceError

/-- The refusals for want of memory. -/
def OutOfMemory : DeviceError → Prop
  | outOfMemory _ _ => True
  | _ => False

end DeviceError

namespace ExecutionError

/-- The device had no memory for a call. -/
def OutOfMemory : ExecutionError → Prop
  | device _ e => e.OutOfMemory
  | _ => False

end ExecutionError

/-- The run ended because the device had no memory for a call. -/
def Status.OutOfMemory : Status → Prop
  | completed => False
  | failed fault => fault.error.OutOfMemory

/-- The budget with another limit. -/
def Budget.withLimit (b : Budget) (limit : UInt64) : Budget := { b with limit := limit }

/-- The device with other limits. -/
def HostDevice.withLimits (d : HostDevice) (limit : UInt64) (largest : Nat) : HostDevice :=
  { d with memory := d.memory.withLimit limit, maxAllocation := largest }

/-!
### Answers
-/

/-- The first answer is a refusal for want of memory, or the second is what becomes of it. -/
def UnlessFull {α β : Type} (f : α → β) (x : Except DeviceError α) (y : Except DeviceError β) :
    Prop :=
  (∃ e, x = .error e ∧ e.OutOfMemory) ∨ y = x.map f

namespace UnlessFull

variable {α β γ δ : Type}

lemma refl (x : Except DeviceError α) : UnlessFull id x x := by
  right
  cases x <;> rfl

lemma bind {f : α → β} {g : γ → δ} {x : Except DeviceError α} {y : Except DeviceError β}
    {k : α → Except DeviceError γ} {l : β → Except DeviceError δ} (h : UnlessFull f x y)
    (hrest : ∀ a, UnlessFull g (k a) (l (f a))) : UnlessFull g (x >>= k) (y >>= l) := by
  rcases h with ⟨e, rfl, hfull⟩ | rfl
  · exact .inl ⟨e, rfl, hfull⟩
  · cases x with
    | error e => exact .inr rfl
    | ok a => exact hrest a

end UnlessFull

lemma Budget.reserve_withLimit {b : Budget} {limit : UInt64} (hlimit : b.limit ≤ limit)
    (size : Nat) :
    UnlessFull (·.withLimit limit) (b.reserve size) ((b.withLimit limit).reserve size) := by
  have hle : b.limit.toNat ≤ limit.toNat := UInt64.le_iff_toNat_le.mp hlimit
  by_cases hfit : b.used.toNat + size ≤ b.limit.toNat
  · right
    have hmore : b.used.toNat + size ≤ limit.toNat := by omega
    rw [reserve_eq_ok_iff.mpr ⟨hfit, rfl⟩]
    exact reserve_eq_ok_iff.mpr ⟨hmore, rfl⟩
  · left
    simp only [reserve, if_neg hfit]
    exact ⟨_, rfl, trivial⟩

namespace HostDevice

/-- Neither limit of the device is above the one that is given. -/
structure Within (d : HostDevice) (limit : UInt64) (largest : Nat) : Prop where
  memory : d.memory.limit ≤ limit
  allocation : d.maxAllocation ≤ largest

variable {d : HostDevice} {limit : UInt64} {largest : Nat}

/-!
### Checks
-/

lemma checkAllocation_withLimits (h : d.Within limit largest) (size : Nat) :
    UnlessFull id (d.checkAllocation size) ((d.withLimits limit largest).checkAllocation size) := by
  by_cases hfit : size ≤ d.maxAllocation
  · right
    have hmore : size ≤ largest := Nat.le_trans hfit h.allocation
    rw [checkAllocation_eq_ok_iff.mpr hfit]
    exact checkAllocation_eq_ok_iff.mpr hmore
  · left
    simp only [checkAllocation, if_neg hfit]
    exact ⟨_, rfl, trivial⟩

lemma charge_withLimit (h : d.Within limit largest) (location : Residence) (size : Nat) :
    UnlessFull (·.withLimit limit) (charge d.memory location size)
      (charge (d.memory.withLimit limit) location size) := by
  cases location with
  | host => exact .inr rfl
  | device => exact Budget.reserve_withLimit h.memory size

lemma moveMemory_withLimit (h : d.Within limit largest) (destination : Residence) (size : Nat) :
    UnlessFull (·.withLimit limit) (moveMemory d.memory destination size)
      (moveMemory (d.memory.withLimit limit) destination size) := by
  cases destination with
  | host => exact .inr rfl
  | device => exact Budget.reserve_withLimit h.memory size

lemma reclaim_withLimit (memory : Budget) (limit : UInt64) (t : HostTensor) :
    reclaim (memory.withLimit limit) t = (reclaim memory t).withLimit limit := by
  unfold reclaim
  cases t.location <;> rfl

lemma prepare_withLimits (h : d.Within limit largest) (type : TensorType) (location : Residence)
    (data? : Option Bytes) :
    UnlessFull (Prod.map id (·.withLimit limit)) (d.prepare type location data?)
      ((d.withLimits limit largest).prepare type location data?) := by
  refine .bind (.refl type.addressableSize) fun size => ?_
  refine .bind (.refl (checkContents type size data?)) fun _ => ?_
  refine .bind (checkAllocation_withLimits h size) fun _ => ?_
  exact .bind (charge_withLimit h location size) fun memory => .inr rfl

lemma prepareTransfer_withLimits (h : d.Within limit largest) (destination : Residence)
    (t : HostTensor) :
    UnlessFull (·.withLimit limit) (d.prepareTransfer destination t)
      ((d.withLimits limit largest).prepareTransfer destination t) := by
  refine .bind (.refl (d.checkLive t)) fun _ => ?_
  refine .bind (.refl (checkLocation t destination.opposite)) fun _ => ?_
  exact moveMemory_withLimit h destination t.bytes.length

lemma checkOperands_withLimits (d : HostDevice) (limit : UInt64) (largest : Nat)
    (operands : List HostTensor) :
    (d.withLimits limit largest).checkOperands operands = d.checkOperands operands := by
  induction operands with
  | nil => rfl
  | cons t rest ih =>
    rw [checkOperands, checkOperands, ih]
    rfl

lemma prepareCompute_withLimits (h : d.Within limit largest) (kernel : Kernel)
    (operands : List HostTensor) :
    UnlessFull (Prod.map id (·.withLimit limit)) (d.prepareCompute kernel operands)
      ((d.withLimits limit largest).prepareCompute kernel operands) := by
  unfold prepareCompute
  rw [checkOperands_withLimits]
  refine .bind (.refl (d.checkOperands operands)) fun _ => ?_
  refine .bind (.refl (kernel.resultType (operands.map (·.type)))) fun type => ?_
  refine .bind (.refl type.addressableSize) fun size => ?_
  refine .bind (checkAllocation_withLimits h size) fun _ => ?_
  exact .bind (Budget.reserve_withLimit h.memory size) fun memory => .inr rfl

/-!
### Calls
-/

lemma fire?_withLimits (d : HostDevice) (limit : UInt64) (largest : Nat) (call : DeviceCall) :
    (d.withLimits limit largest).fire? call =
      (d.fire? call).map (·.withLimits limit largest) := by
  by_cases harmed : call ∈ d.armed
  · rw [fire?_of_mem harmed, fire?_of_mem (d := d.withLimits limit largest) harmed]
    rfl
  · rw [fire?_of_not_mem harmed, fire?_of_not_mem (d := d.withLimits limit largest) harmed]
    rfl

/-- A call that does not fail for want of memory is answered in the same way under higher limits. -/
lemma allocate_withLimits (h : d.Within limit largest) (type : TensorType) (location : Residence)
    (data? : Option Bytes) :
    (∃ e, (d.allocate type location data?).1 = .error e ∧ e.OutOfMemory) ∨
      (d.withLimits limit largest).allocate type location data? =
        ((d.allocate type location data?).1,
          (d.allocate type location data?).2.withLimits limit largest) := by
  unfold allocate
  rw [fire?_withLimits]
  cases d.fire? .allocate with
  | some d' => exact .inr rfl
  | none =>
    rcases prepare_withLimits h type location data? with ⟨e, hprepare, hfull⟩ | hsame
    · rw [hprepare]
      exact .inl ⟨e, rfl, hfull⟩
    · right
      simp only [Option.map_none, hsame]
      cases d.prepare type location data? <;> rfl

lemma transfer_withLimits (h : d.Within limit largest) (destination : Residence) (t : HostTensor) :
    (∃ e, (d.transfer destination t).1 = .error e ∧ e.OutOfMemory) ∨
      (d.withLimits limit largest).transfer destination t =
        ((d.transfer destination t).1, (d.transfer destination t).2.1,
          (d.transfer destination t).2.2.withLimits limit largest) := by
  unfold transfer
  rw [fire?_withLimits]
  cases d.fire? (transferCall destination) with
  | some d' => exact .inr rfl
  | none =>
    rcases prepareTransfer_withLimits h destination t with ⟨e, hprepare, hfull⟩ | hsame
    · rw [hprepare]
      exact .inl ⟨e, rfl, hfull⟩
    · right
      simp only [Option.map_none, hsame]
      cases d.prepareTransfer destination t <;> rfl

lemma compute_withLimits (h : d.Within limit largest) (kernel : Kernel)
    (operands : List HostTensor) :
    (∃ e, (d.compute kernel operands).1 = .error e ∧ e.OutOfMemory) ∨
      (d.withLimits limit largest).compute kernel operands =
        ((d.compute kernel operands).1,
          (d.compute kernel operands).2.withLimits limit largest) := by
  unfold compute
  rw [fire?_withLimits]
  cases d.fire? .compute with
  | some d' => exact .inr rfl
  | none =>
    rcases prepareCompute_withLimits h kernel operands with ⟨e, hprepare, hfull⟩ | hsame
    · rw [hprepare]
      exact .inl ⟨e, rfl, hfull⟩
    · right
      simp only [Option.map_none, hsame]
      cases d.prepareCompute kernel operands <;> rfl

/-- A release asks for no memory. -/
lemma release_withLimits (d : HostDevice) (limit : UInt64) (largest : Nat) (t : HostTensor)
    (force : Bool) :
    (d.withLimits limit largest).release t force =
      ((d.release t force).1, (d.release t force).2.withLimits limit largest) := by
  have hlive : (d.withLimits limit largest).checkLive t = d.checkLive t := rfl
  unfold release
  rw [hlive]
  cases d.checkLive t with
  | error e => rfl
  | ok _ =>
    have hfire := fire?_withLimits { d with outstanding := d.outstanding.erase t.serial } limit
      largest .release
    simp only [withLimits] at hfire ⊢
    rw [hfire]
    cases fire? { d with outstanding := d.outstanding.erase t.serial } .release with
    | some d' => rfl
    | none =>
      by_cases hpinned : force = false ∧ t.serial ∈ d.pins
      · simp only [Option.map_none, if_pos hpinned]
        exact if_pos hpinned
      · simp only [Option.map_none, if_neg hpinned, ← reclaim_withLimit]
        exact if_neg hpinned

/-!
### Limits
-/

/-- The limits are as they were. -/
structure SameLimits (d d' : HostDevice) : Prop where
  memory : d'.memory.limit = d.memory.limit
  allocation : d'.maxAllocation = d.maxAllocation

lemma Within.of_same {d' : HostDevice} (h : d.Within limit largest) (hsame : d.SameLimits d') :
    d'.Within limit largest :=
  ⟨hsame.memory ▸ h.memory, hsame.allocation ▸ h.allocation⟩

lemma Refused.sameLimits {α : Type} {d' : HostDevice} {call : DeviceCall}
    {check : Except DeviceError α} {e : DeviceError} (h : d.Refused call check e d') :
    d.SameLimits d' := by
  cases h <;> exact ⟨rfl, rfl⟩

lemma sameLimits_allocate (d : HostDevice) (type : TensorType) (location : Residence)
    (data? : Option Bytes) : d.SameLimits (d.allocate type location data?).2 := by
  rcases allocate_outcome d type location data? with
    ⟨e, d', hrefused, hcall⟩ | ⟨bytes, memory, -, hprepare, hcall⟩ <;> rw [hcall]
  · exact hrefused.sameLimits
  · obtain ⟨-, -, -, hcharge⟩ := prepare_eq_ok hprepare
    refine ⟨?_, rfl⟩
    cases location with
    | host => cases hcharge; rfl
    | device => exact Budget.limit_of_reserve hcharge

lemma sameLimits_transfer (d : HostDevice) (destination : Residence) (t : HostTensor) :
    d.SameLimits (d.transfer destination t).2.2 := by
  rcases transfer_outcome d destination t with
    ⟨e, d', hrefused, hcall⟩ | ⟨memory, -, hprepare, hcall⟩ <;> rw [hcall]
  · exact hrefused.sameLimits
  · obtain ⟨-, -, hmove⟩ := prepareTransfer_eq_ok hprepare
    refine ⟨?_, rfl⟩
    cases destination with
    | host => cases hmove; rfl
    | device => exact Budget.limit_of_reserve hmove

lemma sameLimits_compute (d : HostDevice) (kernel : Kernel) (operands : List HostTensor) :
    d.SameLimits (d.compute kernel operands).2 := by
  rcases compute_outcome d kernel operands with
    ⟨e, d', hrefused, hcall⟩ | ⟨type, memory, -, hprepare, hcall⟩ <;> rw [hcall]
  · exact hrefused.sameLimits
  · obtain ⟨-, -, size, -, -, hreserve⟩ := prepareCompute_eq_ok hprepare
    exact ⟨Budget.limit_of_reserve hreserve, rfl⟩

lemma sameLimits_release (d : HostDevice) (t : HostTensor) (force : Bool) :
    d.SameLimits (d.release t force).2 := by
  rcases release_outcome d t force with
    ⟨-, hcall⟩ | ⟨-, ⟨-, hcall⟩ | ⟨-, -, -, hcall⟩ | ⟨-, -, hcall⟩⟩ <;> rw [hcall]
  · exact ⟨rfl, rfl⟩
  · exact ⟨rfl, rfl⟩
  · exact ⟨rfl, rfl⟩
  · refine ⟨?_, rfl⟩
    unfold reclaim
    cases t.location <;> rfl

end HostDevice

/-!
### Runs
-/

open HostDevice (provider)

variable {limit : UInt64} {largest : Nat}

/-- The second machine is the first on a device with higher limits. -/
structure Machine.Roomier (limit : UInt64) (largest : Nat)
    (m q : Machine HostDevice HostTensor) : Prop where
  within : m.device.Within limit largest
  same : q = ⟨m.pool, m.device.withLimits limit largest⟩

namespace Action

/-- An action that the first device has memory for is carried out in the same way. -/
lemma outcome_withLimits {m : Machine HostDevice HostTensor} (h : m.device.Within limit largest)
    (operation : Opcode) (action : Action HostTensor) :
    Machine.StepMatches (Machine.Roomier limit largest) ExecutionError.OutOfMemory
      (action.outcome provider operation m)
      (action.outcome provider operation ⟨m.pool, m.device.withLimits limit largest⟩) := by
  cases action with
  | allocate output type residence =>
    have hwithin := h.of_same (HostDevice.sameLimits_allocate m.device type residence none)
    have hcall := HostDevice.allocate_withLimits h type residence none
    simp only [outcome, carryOut, provider]
    generalize m.device.allocate type residence none = answer at hwithin hcall
    rcases hcall with ⟨e, hfirst, hfull⟩ | hcall
    · obtain ⟨_, d'⟩ := answer
      cases hfirst
      exact .excused hfull _ _
    · rw [hcall]
      obtain ⟨_ | handle, d'⟩ := answer
      · exact .related _ ⟨hwithin, rfl⟩
      · exact .related _ ⟨hwithin, rfl⟩
  | transfer destination entry target =>
    have hwithin := h.of_same (HostDevice.sameLimits_transfer m.device destination entry.handle)
    have hcall := HostDevice.transfer_withLimits h destination entry.handle
    simp only [outcome, carryOut, provider]
    generalize m.device.transfer destination entry.handle = answer at hwithin hcall
    rcases hcall with ⟨e, hfirst, hfull⟩ | hcall
    · obtain ⟨_, handle, d'⟩ := answer
      cases hfirst
      exact .excused hfull _ _
    · rw [hcall]
      obtain ⟨_ | _, handle, d'⟩ := answer
      · exact .related _ ⟨hwithin, rfl⟩
      · exact .related _ ⟨hwithin, rfl⟩
  | release entry force =>
    have hwithin := h.of_same (HostDevice.sameLimits_release m.device entry.handle force)
    simp only [outcome, carryOut, provider, HostDevice.release_withLimits]
    generalize m.device.release entry.handle force = answer at hwithin
    obtain ⟨_ | _, d'⟩ := answer
    · exact .related _ ⟨hwithin, rfl⟩
    · exact .related _ ⟨hwithin, rfl⟩
  | compute kernel operands output =>
    have hwithin := h.of_same (HostDevice.sameLimits_compute m.device kernel operands)
    have hcall := HostDevice.compute_withLimits h kernel operands
    simp only [outcome, carryOut, provider]
    generalize m.device.compute kernel operands = answer at hwithin hcall
    rcases hcall with ⟨e, hfirst, hfull⟩ | hcall
    · obtain ⟨_, d'⟩ := answer
      cases hfirst
      exact .excused hfull _ _
    · rw [hcall]
      obtain ⟨_ | handle, d'⟩ := answer
      · exact .related _ ⟨hwithin, rfl⟩
      · exact .related _ ⟨hwithin, rfl⟩

end Action

lemma Machine.Roomier.step {m q : Machine HostDevice HostTensor} (h : Roomier limit largest m q)
    (i : Instruction) :
    StepMatches (Roomier limit largest) ExecutionError.OutOfMemory (m.step provider i)
      (q.step provider i) := by
  obtain ⟨hwithin, rfl⟩ := h
  let q : Machine HostDevice HostTensor := ⟨m.pool, m.device.withLimits limit largest⟩
  cases hplan : i.plan m.pool with
  | error e =>
    rw [step_of_plan_error provider hplan, step_of_plan_error provider (m := q) hplan]
    exact .related _ ⟨hwithin, rfl⟩
  | ok action =>
    rw [step_of_plan_ok provider hplan, step_of_plan_ok provider (m := q) hplan]
    exact Action.outcome_withLimits hwithin i.opcode action

lemma releaseAll_withLimits (force : Bool) (handles : List (TensorId × HostTensor))
    (d : HostDevice) :
    releaseAll provider force handles (d.withLimits limit largest) =
      { releaseAll provider force handles d with
        device := (releaseAll provider force handles d).device.withLimits limit largest } := by
  induction handles generalizing d with
  | nil => rfl
  | cons first rest ih =>
    obtain ⟨id, t⟩ := first
    have hcall := HostDevice.release_withLimits d limit largest t force
    simp only [releaseAll, provider] at ih ⊢
    rw [hcall]
    generalize d.release t force = answer
    obtain ⟨_ | _, d'⟩ := answer <;> simp only [ih]

lemma reject_withLimits (cfg : RunConfig) (fault : Fault) (surviving : List (TensorId × State))
    (handles : List (TensorId × HostTensor)) (d : HostDevice) :
    reject provider cfg fault surviving handles (d.withLimits limit largest) =
      ((reject provider cfg fault surviving handles d).1,
        (reject provider cfg fault surviving handles d).2.withLimits limit largest) := by
  simp only [reject, releaseAll_withLimits]

namespace Program

lemma execute_withLimits {d : HostDevice} (h : d.Within limit largest) (cfg : RunConfig)
    (p : Program) (inputs : Pool HostTensor)
    (hspared : ¬(p.execute provider cfg inputs d).1.status.OutOfMemory) :
    p.execute provider cfg inputs (d.withLimits limit largest) =
      ((p.execute provider cfg inputs d).1,
        (p.execute provider cfg inputs d).2.withLimits limit largest) := by
  have hmatches := Machine.advance_matches (fun i m q h => Machine.Roomier.step h i)
    p.instructions 0 (m := ⟨inputs, d⟩) ⟨h, rfl⟩
  unfold execute at hspared ⊢
  generalize Machine.advance provider p.instructions 0 ⟨inputs, d⟩ = first at hmatches hspared ⊢
  generalize Machine.advance provider p.instructions 0 ⟨inputs, d.withLimits limit largest⟩ = second
    at hmatches ⊢
  cases hmatches with
  | @related n stopped m _ h =>
    obtain ⟨-, rfl⟩ := h
    have hstatus : Progress.status ⟨n, stopped, ⟨m.pool, m.device.withLimits limit largest⟩⟩
        p.outputs = Progress.status ⟨n, stopped, m⟩ p.outputs := rfl
    have hhanded : Progress.handOver ⟨n, stopped, ⟨m.pool, m.device.withLimits limit largest⟩⟩ cfg
        p.outputs = Progress.handOver ⟨n, stopped, m⟩ cfg p.outputs := rfl
    simp only [hstatus, hhanded, releaseAll_withLimits]
  | excused hfull n m b => exact absurd hfull hspared

/-- A run on a host device that does not fail for want of memory gives the same report on a device
that has higher limits and is the same otherwise. The device behind it differs in the limits alone.
So it is with a run of a byte string. -/
theorem run_withLimits {d : HostDevice} {limit : UInt64} {largest : Nat}
    (hlimit : d.memory.limit ≤ limit) (hlargest : d.maxAllocation ≤ largest) (cfg : RunConfig)
    (inputs : List (TensorId × HostTensor)) :
    (∀ p : Program, ¬(p.run provider cfg inputs d).1.status.OutOfMemory →
      p.run provider cfg inputs (d.withLimits limit largest) =
        ((p.run provider cfg inputs d).1,
          (p.run provider cfg inputs d).2.withLimits limit largest)) ∧
    ∀ bytes, ¬(runBytes provider cfg bytes inputs d).1.status.OutOfMemory →
      runBytes provider cfg bytes inputs (d.withLimits limit largest) =
        ((runBytes provider cfg bytes inputs d).1,
          (runBytes provider cfg bytes inputs d).2.withLimits limit largest) := by
  have hrun : ∀ p : Program, ¬(p.run provider cfg inputs d).1.status.OutOfMemory →
      p.run provider cfg inputs (d.withLimits limit largest) =
        ((p.run provider cfg inputs d).1,
          (p.run provider cfg inputs d).2.withLimits limit largest) := by
    intro p hspared
    unfold run at hspared ⊢
    cases haccept : p.accept cfg (inputs.map Prod.fst) with
    | error fault => exact reject_withLimits cfg fault [] inputs d
    | ok _ =>
      rcases hbound : Pool.bindInputs inputs .empty with ⟨_ | _, pool⟩
      · exact reject_withLimits cfg _ _ _ d
      · simp only [haccept, hbound] at hspared
        exact execute_withLimits ⟨hlimit, hlargest⟩ cfg p pool hspared
  refine ⟨hrun, fun bytes hspared => ?_⟩
  unfold runBytes at hspared ⊢
  cases hdecode : decode bytes with
  | error e => exact reject_withLimits cfg _ [] inputs d
  | ok p =>
    simp only [hdecode] at hspared
    exact hrun p hspared

/-- One byte of memory is enough for a program that makes a tensor of one byte, and no memory is
not. -/
theorem run_withLimits_byte :
    let p : Program := ⟨[], [1], [.allocate 1 ⟨.u8, [1]⟩ .device]⟩
    let d := HostDevice.new 1 1
    let run := p.run provider {} []
    (run (.new 0 1)).1.status.OutOfMemory ∧ (run d).1.status = .completed ∧
      run (d.withLimits 8 8) = ((run d).1, (run d).2.withLimits 8 8) := by
  intro p d run
  have hstatus : (run d).1.status = .completed := by decide
  have hspared : ¬(run d).1.status.OutOfMemory := by
    rw [hstatus]
    exact id
  exact ⟨trivial, hstatus, (run_withLimits (by decide) (by decide) {} []).1 p hspared⟩

end Program

end TensorMachine
