import TensorMachine.Proofs.HostMemory

/-!
# Handles of other devices

A host device knows its handles by their serials, and every device counts its serials from one. So
the handle of another device is refused exactly while no tensor with its serial is outstanding.
Otherwise it passes for that tensor. Its release gives back the bytes that it takes itself and not
those that were counted, so that the counter stays right only if these are as many.
-/

namespace TensorMachine

/-- What is left in use tells how much was given back, for sizes below the width of the counter. -/
lemma Budget.used_giveBack_eq_iff {b : Budget} {size n : Nat} (hsize : size < UInt64.size)
    (hn : n ≤ b.used.toNat) : (b.giveBack size).used.toNat = n ↔ size + n = b.used.toNat := by
  have hlt := b.used.toNat_lt
  have hword : (UInt64.ofNat size).toNat = size := UInt64.toNat_ofNat_of_lt' hsize
  have hsize' : size < 2 ^ 64 := hsize
  rw [giveBack, UInt64.toNat_sub, hword]
  omega

namespace HostDevice

variable {budget : UInt64} {maxAllocation : Nat} {d : HostDevice} {t own : HostTensor}
  {tensors others : List HostTensor}

lemma used_reclaim_eq_iff {memory : Budget} {n : Nat} (ht : t.footprint < UInt64.size)
    (hn : n ≤ memory.used.toNat) :
    (reclaim memory t).used.toNat = n ↔ t.footprint + n = memory.used.toNat := by
  unfold HostTensor.footprint at ht ⊢
  unfold reclaim
  cases hside : t.location with
  | host =>
    rw [Nat.zero_add]
    exact eq_comm
  | device =>
    rw [hside] at ht
    exact Budget.used_giveBack_eq_iff ht hn

/-!
### Refused handles
-/

/-- The device refuses the tensor in every call, and no call changes the device. -/
structure Disowns (d : HostDevice) (t : HostTensor) : Prop where
  release (force : Bool) :
    d.release t force = (.error (.invalidHandle t.toTensorLabel .notOwned), d)
  transfer (destination : Residence) :
    d.transfer destination t = (.error (.invalidHandle t.toTensorLabel .notOwned), t, d)
  compute (kernel : Kernel) (operands : List HostTensor) (ht : t ∈ operands) :
    ∃ label fault, d.compute kernel operands = (.error (.invalidHandle label fault), d)
  read : d.read t = .error (.invalidHandle t.toTensorLabel .notOwned)

lemma checkLive_of_dead (h : t.serial ∉ d.outstanding) :
    d.checkLive t = .error (.invalidHandle t.toTensorLabel .notOwned) := if_neg h

lemma checkOperands_error {operands : List HostTensor} {e : DeviceError}
    (h : d.checkOperands operands = .error e) : ∃ label fault, e = .invalidHandle label fault := by
  induction operands with
  | nil => cases h
  | cons x rest ih =>
    rcases Except.bind_eq_error_iff.mp h with hlive | ⟨_, -, h⟩
    · exact ⟨_, _, checkLive_error hlive⟩
    rcases Except.bind_eq_error_iff.mp h with hside | ⟨_, -, h⟩
    · exact ⟨_, _, checkLocation_error hside⟩
    · exact ih h

lemma disowns_of_dead (harmed : d.armed = []) (hdead : t.serial ∉ d.outstanding) :
    d.Disowns t where
  release force := by
    unfold release
    rw [checkLive_of_dead hdead]
  transfer destination := by
    have hfire : d.fire? (transferCall destination) = none :=
      fire?_of_not_mem (by rw [harmed]; exact List.not_mem_nil)
    unfold transfer prepareTransfer
    rw [hfire, checkLive_of_dead hdead]
    rfl
  compute kernel operands ht := by
    have hfire : d.fire? .compute = none :=
      fire?_of_not_mem (by rw [harmed]; exact List.not_mem_nil)
    have hcheck : ∃ e, d.checkOperands operands = .error e := by
      cases hoperands : d.checkOperands operands with
      | error e => exact ⟨e, rfl⟩
      | ok _ => exact absurd (checkOperands_eq_ok_iff.mp hoperands t ht).1 hdead
    obtain ⟨e, hcheck⟩ := hcheck
    obtain ⟨label, fault, rfl⟩ := checkOperands_error hcheck
    refine ⟨label, fault, ?_⟩
    unfold compute prepareCompute
    rw [hfire, hcheck]
    rfl
  read := by
    unfold read
    rw [checkLive_of_dead hdead]
    rfl

lemma dead_of_disowns (h : d.Disowns t) : t.serial ∉ d.outstanding := by
  intro hlive
  have hrefused := h.release true
  rcases release_outcome d t true with
    ⟨hdead, -⟩ | ⟨-, ⟨-, hcall⟩ | ⟨-, hforce, -, -⟩ | ⟨-, -, hcall⟩⟩
  · exact hdead hlive
  · rw [hcall] at hrefused
    cases hrefused
  · cases hforce
  · rw [hcall] at hrefused
    cases hrefused

/-!
### Accepted handles
-/

/-- A release decides by the serial alone. -/
lemma release_of_same_serial (d : HostDevice) (hserial : own.serial = t.serial)
    (hlive : t.serial ∈ d.outstanding) (force : Bool) :
    (d.release t force).1 = (d.release own force).1 ∧
      (d.release t force).2.outstanding = (d.release own force).2.outstanding := by
  have hlive' : own.serial ∈ d.outstanding := hserial ▸ hlive
  unfold release
  rw [checkLive_eq_ok_iff.mpr hlive, checkLive_eq_ok_iff.mpr hlive', hserial]
  by_cases harmed : DeviceCall.release ∈ d.armed
  · simp only [fire?, if_pos harmed]
    exact ⟨trivial, trivial⟩
  · simp only [fire?, if_neg harmed]
    split
    · exact ⟨rfl, rfl⟩
    · exact ⟨rfl, rfl⟩

/-- The counter is right behind a release exactly if the tensor that was given takes as many bytes
as the one whose serial it has. -/
lemma used_release_eq_iff (hused : d.memory.used.toNat = deviceBytes ((own :: others) ++ d.deferred))
    (hlive : t.serial ∈ d.outstanding) (ht : t.footprint < UInt64.size) (force : Bool) :
    (d.release t force).2.memory.used.toNat =
        deviceBytes (others ++ (d.release t force).2.deferred) ↔
      t.footprint = own.footprint := by
  rw [List.cons_append, deviceBytes_cons] at hused
  have hdeferred : deviceBytes (others ++ (d.deferred ++ [t])) =
      t.footprint + deviceBytes (others ++ d.deferred) := by
    rw [← List.append_assoc, deviceBytes_perm (List.perm_append_singleton t _), deviceBytes_cons]
  rcases release_outcome d t force with
    ⟨hdead, -⟩ | ⟨-, ⟨-, hcall⟩ | ⟨-, -, -, hcall⟩ | ⟨-, -, hcall⟩⟩
  · exact absurd hlive hdead
  · rw [hcall]
    simp only [hused, hdeferred]
    omega
  · rw [hcall]
    simp only [hused, hdeferred]
    omega
  · rw [hcall]
    have hle : deviceBytes (others ++ d.deferred) ≤ d.memory.used.toNat := by omega
    simp only [used_reclaim_eq_iff ht hle, hused]
    omega

/-- A handle of another device is refused, by a device that was not armed to fail, exactly if no
outstanding tensor has its serial. Otherwise its release is answered like that of the tensor whose
serial it has, and the counter is right behind it exactly if both take as many bytes. -/
theorem History.foreign_handle {a b : HostDevice} {budget' : UInt64} {maxAllocation' : Nat}
    {foreign : List HostTensor} (ha : History budget maxAllocation a tensors)
    (hb : History budget' maxAllocation' b foreign) (harmed : a.armed = []) (ht : t ∈ foreign) :
    (a.Disowns t ↔ ∀ own ∈ tensors, own.serial ≠ t.serial) ∧
      ∀ own others, tensors.Perm (own :: others) → own.serial = t.serial → ∀ force,
        (a.release t force).1 = (a.release own force).1 ∧
        (a.release t force).2.outstanding.Perm (others.map (·.serial)) ∧
        ((a.release t force).2.memory.used.toNat =
            deviceBytes (others ++ (a.release t force).2.deferred) ↔
          t.footprint = own.footprint) := by
  have hlist := ha.accounts.outstanding
  constructor
  · have hdead : t.serial ∉ a.outstanding ↔ ∀ own ∈ tensors, own.serial ≠ t.serial := by
      rw [hlist.mem_iff, List.mem_map]
      push Not
      rfl
    rw [← hdead]
    exact ⟨dead_of_disowns, disowns_of_dead harmed⟩
  · intro own others hperm hserial force
    have howned : own ∈ tensors := hperm.symm.subset List.mem_cons_self
    have hlive : t.serial ∈ a.outstanding :=
      hserial ▸ hlist.symm.subset (List.mem_map_of_mem howned)
    have hsize : t.footprint < UInt64.size := by
      have hcounts := hb.accounts.books.counts.within
      have hle := footprint_le_deviceBytes (List.mem_append_left b.deferred ht)
      have hlt : budget'.toNat < UInt64.size := budget'.toNat_lt
      omega
    have hused : a.memory.used.toNat = deviceBytes ((own :: others) ++ a.deferred) := by
      rw [ha.accounts.books.counts.used]
      exact deviceBytes_perm (hperm.append_right a.deferred)
    obtain ⟨hanswer, hout⟩ := a.release_of_same_serial hserial hlive force
    have hreleased := (ha.accounts.release hperm force).outstanding
    rw [← hout] at hreleased
    exact ⟨hanswer, hreleased, used_release_eq_iff hused hlive hsize force⟩

/-- Of two tensors of another device, the second is refused, and the first passes for the only one
that the device has made. -/
theorem History.foreign_handle_second :
    let a := ((HostDevice.new 8 64).allocate ⟨.u8, [2]⟩ .device none).2
    let b := (((HostDevice.new 8 64).allocate ⟨.u8, [2]⟩ .device none).2.allocate
      ⟨.u8, [4]⟩ .host none).2
    let first : HostTensor := ⟨⟨1, ⟨.u8, [2]⟩, .device⟩, [0, 0]⟩
    let second : HostTensor := ⟨⟨2, ⟨.u8, [4]⟩, .host⟩, [0, 0, 0, 0]⟩
    History 8 64 a [first] ∧ History 8 64 b [second, first] ∧ a.armed = [] ∧ a.Disowns second ∧
      ¬a.Disowns first ∧ (a.release first false).1 = .ok () ∧
      (a.release first false).2.memory.used.toNat = deviceBytes [] := by
  intro a b first second
  have hnew : History 8 64 (.new 8 64) [] := .new
  have ha : History 8 64 a [first] := hnew.allocate ⟨.u8, [2]⟩ .device none
  have hb : History 8 64 b [second, first] :=
    (hnew.allocate ⟨.u8, [2]⟩ .device none).allocate ⟨.u8, [4]⟩ .host none
  have harmed : a.armed = [] := rfl
  have hsecond := (ha.foreign_handle hb harmed (t := second) (by decide)).1
  obtain ⟨hfirst, hlike⟩ := ha.foreign_handle hb harmed (t := first) (by decide)
  obtain ⟨hanswer, -, hused⟩ := hlike first [] (.refl _) rfl false
  refine ⟨ha, hb, harmed, hsecond.mpr (by decide), ?_, by decide, hused.mpr rfl⟩
  intro hdisowns
  exact hfirst.mp hdisowns first List.mem_cons_self rfl

/-- A device that has made one tensor, of two bytes, takes back a tensor of one byte that another
device has made. Nothing is outstanding or deferred behind it, and one byte stays in use. -/
theorem release_foreign_accepted :
    let made := (HostDevice.new 8 64).allocate ⟨.u8, [2]⟩ .device none
    let other := (HostDevice.new 8 64).allocate ⟨.u8, [1]⟩ .device none
    let own : HostTensor := ⟨⟨1, ⟨.u8, [2]⟩, .device⟩, [0, 0]⟩
    let foreign : HostTensor := ⟨⟨1, ⟨.u8, [1]⟩, .device⟩, [0]⟩
    let after := made.2.release foreign false
    History 8 64 made.2 [own] ∧ History 8 64 other.2 [foreign] ∧ made.2.armed = [] ∧
      made.1 = .ok own ∧ other.1 = .ok foreign ∧ foreign ≠ own ∧ ¬made.2.Disowns foreign ∧
      after.1 = .ok () ∧ after.2.outstanding = [] ∧ after.2.deferred = [] ∧
      after.2.released = [1] ∧ after.2.memory.used = 1 ∧
      after.2.memory.available? = some 7 := by
  intro made other own foreign after
  have hnew : History 8 64 (.new 8 64) [] := .new
  refine ⟨hnew.allocate ⟨.u8, [2]⟩ .device none, hnew.allocate ⟨.u8, [1]⟩ .device none, rfl, rfl,
    rfl, by decide, ?_, rfl, rfl, rfl, rfl, by decide, by decide⟩
  intro hdisowns
  have hdead := dead_of_disowns hdisowns
  exact hdead (by decide)

end HostDevice

end TensorMachine
