import TensorMachine.Proofs.HostOutcomes

/-!
# Device memory

The counter of a host device is the number of bytes of the tensors that live on the device and that
were not reclaimed, after any calls with handles of the device. A handle that was given out and not
given back is outstanding, whether its holder still has it or has lost it. A deferred release leaves
the tensor in the care of the device, which pays for it until the last pin is gone.

The counter is a 64-bit word that wraps around. It never does, because whatever is given back was
counted before: each tensor is counted once, with the length that it keeps.
-/

namespace TensorMachine

/-- The bytes of device memory that a tensor takes. -/
def HostTensor.footprint (t : HostTensor) : Nat :=
  match t.location with
  | .device => t.bytes.length
  | .host => 0

/-- The bytes of device memory that tensors take together. -/
def deviceBytes : List HostTensor → Nat
  | [] => 0
  | t :: tensors => t.footprint + deviceBytes tensors

lemma deviceBytes_cons (t : HostTensor) (tensors : List HostTensor) :
    deviceBytes (t :: tensors) = t.footprint + deviceBytes tensors := rfl

lemma deviceBytes_perm {tensors others : List HostTensor} (h : tensors.Perm others) :
    deviceBytes tensors = deviceBytes others := by
  induction h with
  | nil => rfl
  | cons t _ ih => rw [deviceBytes_cons, deviceBytes_cons, ih]
  | swap t x tensors =>
    simp only [deviceBytes_cons]
    omega
  | trans _ _ ih ih' => exact ih.trans ih'

lemma deviceBytes_append (tensors others : List HostTensor) :
    deviceBytes (tensors ++ others) = deviceBytes tensors + deviceBytes others := by
  induction tensors with
  | nil => exact (Nat.zero_add _).symm
  | cons t tensors ih =>
    rw [List.cons_append, deviceBytes_cons, deviceBytes_cons, ih, Nat.add_assoc]

lemma deviceBytes_of_host {tensors : List HostTensor} (h : ∀ t ∈ tensors, t.location = .host) :
    deviceBytes tensors = 0 := by
  induction tensors with
  | nil => rfl
  | cons t tensors ih =>
    obtain ⟨ht, hrest⟩ := List.forall_mem_cons.mp h
    rw [deviceBytes_cons, ih hrest, HostTensor.footprint, ht]

lemma footprint_le_deviceBytes {t : HostTensor} {tensors : List HostTensor} (h : t ∈ tensors) :
    t.footprint ≤ deviceBytes tensors := by
  rw [deviceBytes_perm (List.perm_cons_erase h), deviceBytes_cons]
  exact Nat.le_add_right t.footprint _

namespace HostDevice

variable {budget : UInt64} {maxAllocation : Nat}

/-!
### Counters
-/

/-- The counter shows a number of bytes, which is within the budget. -/
structure Counts (budget : UInt64) (memory : Budget) (n : Nat) : Prop where
  limit : memory.limit = budget
  used : memory.used.toNat = n
  within : n ≤ budget.toNat

namespace Counts

variable {memory memory' : Budget} {n : Nat} {t : HostTensor}

lemma reserve {size : Nat} (h : Counts budget memory n)
    (hreserve : memory.reserve size = .ok memory') : Counts budget memory' (size + n) := by
  have hused := Budget.used_of_reserve hreserve
  have hfit := (Budget.reserve_eq_ok_iff.mp hreserve).1
  rw [h.used] at hused hfit
  rw [h.limit] at hfit
  exact ⟨(Budget.limit_of_reserve hreserve).trans h.limit, by omega, by omega⟩

/-- No more is given back than was counted. -/
lemma giveBack {size : Nat} (h : Counts budget memory (size + n)) :
    Counts budget (memory.giveBack size) n := by
  have hused := h.used
  have hwithin := h.within
  have hle : size ≤ memory.used.toNat := by omega
  exact ⟨h.limit, by rw [Budget.used_giveBack hle]; omega, by omega⟩

lemma charge (h : Counts budget memory n)
    (hcharge : charge memory t.location t.bytes.length = .ok memory') :
    Counts budget memory' (t.footprint + n) := by
  unfold HostTensor.footprint
  cases hside : t.location with
  | host =>
    rw [hside] at hcharge
    cases hcharge
    rwa [Nat.zero_add]
  | device =>
    rw [hside] at hcharge
    exact h.reserve hcharge

lemma reclaim (h : Counts budget memory (t.footprint + n)) :
    Counts budget (reclaim memory t) n := by
  unfold HostTensor.footprint at h
  unfold HostDevice.reclaim
  cases hside : t.location with
  | host =>
    rw [hside] at h
    rwa [Nat.zero_add] at h
  | device =>
    rw [hside] at h
    exact h.giveBack

lemma move {destination : Residence} (h : Counts budget memory (t.footprint + n))
    (hside : t.location = destination.opposite)
    (hmove : moveMemory memory destination t.bytes.length = .ok memory') :
    Counts budget memory' (HostTensor.footprint { t with location := destination } + n) := by
  unfold HostTensor.footprint at h ⊢
  rw [hside] at h
  cases destination with
  | host =>
    cases hmove
    rw [Nat.zero_add]
    exact h.giveBack
  | device =>
    have hbefore : Counts budget memory n := (Nat.zero_add n) ▸ h
    exact hbefore.reserve hmove

end Counts

/-!
### Books
-/

/-- The tensors that a device pays for, in any order, against its counters. -/
structure Books (budget : UInt64) (maxAllocation : Nat) (memory : Budget) (nextSerial : Nat)
    (tensors : List HostTensor) : Prop where
  counts : Counts budget memory (deviceBytes tensors)
  issued : ∀ t ∈ tensors, t.serial < nextSerial
  distinct : (tensors.map (·.serial)).Nodup
  sized : ∀ t ∈ tensors, t.Filled ∧ t.bytes.length ≤ maxAllocation

namespace Books

variable {memory memory' : Budget} {nextSerial : Nat} {t : HostTensor}
  {tensors others : List HostTensor}

lemma perm (h : Books budget maxAllocation memory nextSerial tensors)
    (hperm : tensors.Perm others) : Books budget maxAllocation memory nextSerial others where
  counts := deviceBytes_perm hperm ▸ h.counts
  issued x hx := h.issued x (hperm.symm.subset hx)
  distinct := (hperm.map _).nodup_iff.mp h.distinct
  sized x hx := h.sized x (hperm.symm.subset hx)

lemma issue (h : Books budget maxAllocation memory nextSerial tensors)
    (hserial : t.serial = nextSerial) (hsized : t.Filled ∧ t.bytes.length ≤ maxAllocation)
    (hcharge : charge memory t.location t.bytes.length = .ok memory') :
    Books budget maxAllocation memory' (nextSerial + 1) (t :: tensors) where
  counts := deviceBytes_cons t tensors ▸ h.counts.charge hcharge
  issued := by
    refine List.forall_mem_cons.mpr ⟨by omega, fun x hx => ?_⟩
    have hlt := h.issued x hx
    omega
  distinct := by
    refine List.nodup_cons.mpr ⟨fun hmem => ?_, h.distinct⟩
    obtain ⟨x, hx, hsame⟩ := List.mem_map.mp hmem
    have hlt : x.serial < nextSerial := h.issued x hx
    have hsame : x.serial = t.serial := hsame
    omega
  sized := List.forall_mem_cons.mpr ⟨hsized, h.sized⟩

lemma reclaim (h : Books budget maxAllocation memory nextSerial (t :: tensors)) :
    Books budget maxAllocation (reclaim memory t) nextSerial tensors where
  counts := (deviceBytes_cons t tensors ▸ h.counts).reclaim
  issued := (List.forall_mem_cons.mp h.issued).2
  distinct := (List.nodup_cons.mp h.distinct).2
  sized := (List.forall_mem_cons.mp h.sized).2

lemma move (h : Books budget maxAllocation memory nextSerial (t :: tensors))
    {destination : Residence} (hside : t.location = destination.opposite)
    (hmove : moveMemory memory destination t.bytes.length = .ok memory') :
    Books budget maxAllocation memory' nextSerial
      ({ t with location := destination } :: tensors) where
  counts := deviceBytes_cons _ tensors ▸ (deviceBytes_cons t tensors ▸ h.counts).move hside hmove
  issued := List.forall_mem_cons.mpr (List.forall_mem_cons.mp h.issued)
  distinct := h.distinct
  sized := by
    obtain ⟨hsized, hrest⟩ := List.forall_mem_cons.mp h.sized
    exact List.forall_mem_cons.mpr ⟨hsized, hrest⟩

end Books

/-!
### Histories
-/

/-- The states that a new host device comes to when it is given its own handles only, with the
tensors that are outstanding. Any call may be refused. A handle that is in no later call has been
lost by its holder, but is outstanding all the same. To read a tensor changes no state, and a host
tensor is an allocation with contents. -/
inductive History (budget : UInt64) (maxAllocation : Nat) : HostDevice → List HostTensor → Prop
  | new : History budget maxAllocation (.new budget maxAllocation) []
  | failNext {d : HostDevice} {tensors : List HostTensor}
    (h : History budget maxAllocation d tensors) (call : DeviceCall) :
    History budget maxAllocation (d.failNext call) tensors
  | pin {d : HostDevice} {tensors : List HostTensor}
    (h : History budget maxAllocation d tensors) (serial : Nat) :
    History budget maxAllocation (d.pin serial) tensors
  | unpin {d : HostDevice} {tensors : List HostTensor}
    (h : History budget maxAllocation d tensors) (serial : Nat) :
    History budget maxAllocation (d.unpin serial) tensors
  | allocate {d : HostDevice} {tensors : List HostTensor}
    (h : History budget maxAllocation d tensors) (type : TensorType) (location : Residence)
    (data? : Option Bytes) :
    History budget maxAllocation (d.allocate type location data?).2
      ((d.allocate type location data?).1.toOption.toList ++ tensors)
  | release {d : HostDevice} {t : HostTensor} {tensors others : List HostTensor}
    (h : History budget maxAllocation d tensors) (ht : tensors.Perm (t :: others))
    (force : Bool) : History budget maxAllocation (d.release t force).2 others
  | transfer {d : HostDevice} {t : HostTensor} {tensors others : List HostTensor}
    (h : History budget maxAllocation d tensors) (ht : tensors.Perm (t :: others))
    (destination : Residence) :
    History budget maxAllocation (d.transfer destination t).2.2
      ((d.transfer destination t).2.1 :: others)
  | compute {d : HostDevice} {tensors : List HostTensor}
    (h : History budget maxAllocation d tensors) (kernel : Kernel) (operands : List HostTensor)
    (hoperands : ∀ t ∈ operands, t ∈ tensors) :
    History budget maxAllocation (d.compute kernel operands).2
      ((d.compute kernel operands).1.toOption.toList ++ tensors)

/-- The books are kept for the outstanding tensors and for those whose release is deferred. -/
structure Accounts (budget : UInt64) (maxAllocation : Nat) (d : HostDevice)
    (tensors : List HostTensor) : Prop where
  limit : d.maxAllocation = maxAllocation
  outstanding : d.outstanding.Perm (tensors.map (·.serial))
  books : Books budget maxAllocation d.memory d.nextSerial (tensors ++ d.deferred)

namespace Accounts

variable {d d' : HostDevice} {t : HostTensor} {tensors others : List HostTensor}

lemma refused {α : Type} {call : DeviceCall} {check : Except DeviceError α} {e : DeviceError}
    (h : Accounts budget maxAllocation d tensors) (hrefused : d.Refused call check e d') :
    Accounts budget maxAllocation d' tensors := by
  cases hrefused with
  | armed => exact ⟨h.limit, h.outstanding, h.books⟩
  | checked => exact h

lemma unpin (h : Accounts budget maxAllocation d tensors) (serial : Nat) :
    Accounts budget maxAllocation (d.unpin serial) tensors := by
  rcases unpin_outcome d serial with ⟨-, heq⟩ | ⟨t, ht, hserial, -, -, heq⟩
  · rw [heq]
    exact ⟨h.limit, h.outstanding, h.books⟩
  · rw [heq, ← hserial]
    have hdistinct : (d.deferred.map (·.serial)).Nodup :=
      h.books.distinct.sublist ((List.sublist_append_right tensors d.deferred).map _)
    have hperm : (tensors ++ d.deferred).Perm
        (t :: (tensors ++ d.deferred.filter (·.serial != t.serial))) :=
      ((perm_cons_filter_key hdistinct ht).append_left tensors).trans List.perm_middle
    exact ⟨h.limit, h.outstanding, (h.books.perm hperm).reclaim⟩

lemma issue (h : Accounts budget maxAllocation d tensors) {type : TensorType}
    {location : Residence} {bytes : Bytes} {memory : Budget}
    (hsize : type.byteSize? = some bytes.length) (hlimit : bytes.length ≤ d.maxAllocation)
    (hcharge : charge d.memory location bytes.length = .ok memory) :
    Accounts budget maxAllocation (d.issue memory type location bytes).2
      ((d.issue memory type location bytes).1 :: tensors) :=
  ⟨h.limit, h.outstanding.cons _,
    h.books.issue rfl ⟨hsize, h.limit ▸ hlimit⟩ hcharge⟩

lemma allocate (h : Accounts budget maxAllocation d tensors) (type : TensorType)
    (location : Residence) (data? : Option Bytes) :
    Accounts budget maxAllocation (d.allocate type location data?).2
      ((d.allocate type location data?).1.toOption.toList ++ tensors) := by
  rcases allocate_outcome d type location data? with
    ⟨e, d', hrefused, hcall⟩ | ⟨bytes, memory, -, hprepare, hcall⟩
  · rw [hcall]
    exact h.refused hrefused
  · rw [hcall]
    obtain ⟨hsize, -, hlimit, hcharge⟩ := prepare_eq_ok hprepare
    exact h.issue hsize hlimit hcharge

lemma compute (h : Accounts budget maxAllocation d tensors) (kernel : Kernel)
    {operands : List HostTensor} (hoperands : ∀ t ∈ operands, t ∈ tensors) :
    Accounts budget maxAllocation (d.compute kernel operands).2
      ((d.compute kernel operands).1.toOption.toList ++ tensors) := by
  rcases compute_outcome d kernel operands with
    ⟨e, d', hrefused, hcall⟩ | ⟨type, memory, -, hprepare, hcall⟩
  · rw [hcall]
    exact h.refused hrefused
  · rw [hcall]
    have hfilled : ∀ t ∈ operands, t.Filled := fun t ht =>
      (h.books.sized t (List.mem_append_left d.deferred (hoperands t ht))).1
    obtain ⟨bytes, hrun, hsize, hlimit, hreserve⟩ := run?_of_prepareCompute hprepare hfilled
    rw [hrun]
    exact h.issue hsize hlimit hreserve

lemma release (h : Accounts budget maxAllocation d tensors) (ht : tensors.Perm (t :: others))
    (force : Bool) : Accounts budget maxAllocation (d.release t force).2 others := by
  have hlist : d.outstanding.Perm (t.serial :: others.map (·.serial)) :=
    h.outstanding.trans (ht.map _)
  have hout : (d.outstanding.erase t.serial).Perm (others.map (·.serial)) := by
    have herase := hlist.erase t.serial
    rwa [List.erase_cons_head] at herase
  have hgone : (tensors ++ d.deferred).Perm (t :: (others ++ d.deferred)) :=
    ht.append_right d.deferred
  have hkept : (tensors ++ d.deferred).Perm (others ++ (d.deferred ++ [t])) := by
    rw [← List.append_assoc]
    exact hgone.trans (List.perm_append_singleton t _).symm
  rcases release_outcome d t force with
    ⟨hdead, -⟩ | ⟨-, ⟨-, hcall⟩ | ⟨-, -, -, hcall⟩ | ⟨-, -, hcall⟩⟩
  · exact absurd (hlist.symm.subset List.mem_cons_self) hdead
  · rw [hcall]
    exact ⟨h.limit, hout, h.books.perm hkept⟩
  · rw [hcall]
    exact ⟨h.limit, hout, h.books.perm hkept⟩
  · rw [hcall]
    exact ⟨h.limit, hout, (h.books.perm hgone).reclaim⟩

lemma transfer (h : Accounts budget maxAllocation d tensors) (ht : tensors.Perm (t :: others))
    (destination : Residence) :
    Accounts budget maxAllocation (d.transfer destination t).2.2
      ((d.transfer destination t).2.1 :: others) := by
  have hall : (tensors ++ d.deferred).Perm (t :: (others ++ d.deferred)) :=
    ht.append_right d.deferred
  have hout : d.outstanding.Perm ((t :: others).map (·.serial)) := h.outstanding.trans (ht.map _)
  rcases transfer_outcome d destination t with
    ⟨e, d', hrefused, hcall⟩ | ⟨memory, -, hprepare, hcall⟩
  · rw [hcall]
    exact Accounts.refused ⟨h.limit, hout, h.books.perm hall⟩ hrefused
  · rw [hcall]
    obtain ⟨-, hside, hmove⟩ := prepareTransfer_eq_ok hprepare
    exact ⟨h.limit, hout, (h.books.perm hall).move hside hmove⟩

end Accounts

lemma History.accounts {d : HostDevice} {tensors : List HostTensor}
    (h : History budget maxAllocation d tensors) : Accounts budget maxAllocation d tensors := by
  induction h with
  | new =>
    have hcounts : Counts budget (.ofLimit budget) 0 := ⟨rfl, rfl, Nat.zero_le _⟩
    exact ⟨rfl, .nil, hcounts, nofun, .nil, nofun⟩
  | failNext _ call ih => exact ⟨ih.limit, ih.outstanding, ih.books⟩
  | pin _ serial ih => exact ⟨ih.limit, ih.outstanding, ih.books⟩
  | unpin _ serial ih => exact ih.unpin serial
  | allocate _ type location data? ih => exact ih.allocate type location data?
  | release _ ht force ih => exact ih.release ht force
  | transfer _ ht destination ih => exact ih.transfer ht destination
  | compute _ kernel operands hoperands ih => exact ih.compute kernel hoperands

/-- The counter shows the bytes of the tensors on the device that are outstanding or deferred. They
fit into the budget, and each of them has the size of its type and can be given back. -/
theorem History.memory_exact {d : HostDevice} {tensors : List HostTensor}
    (h : History budget maxAllocation d tensors) :
    d.outstanding.Perm (tensors.map (·.serial)) ∧
      d.memory.used.toNat = deviceBytes (tensors ++ d.deferred) ∧
      d.memory.used ≤ budget ∧
      d.memory.available? = some (budget.toNat - d.memory.used.toNat) ∧
      ∀ t ∈ tensors ++ d.deferred, t.location = .device →
        t.type.byteSize? = some t.bytes.length ∧ t.bytes.length ≤ maxAllocation ∧
          (d.memory.giveBack t.bytes.length).used.toNat + t.bytes.length =
            d.memory.used.toNat := by
  obtain ⟨-, houtstanding, hcounts, -, -, hsized⟩ := h.accounts
  have hlimit : d.memory.limit = budget := hcounts.limit
  have hused := hcounts.used
  have hwithin : d.memory.used ≤ budget := by
    rw [UInt64.le_iff_toNat_le, hused]
    exact hcounts.within
  refine ⟨houtstanding, hused, hwithin, ?_, fun t ht hside => ?_⟩
  · rw [Budget.available?, hlimit, if_pos hwithin]
  · have hfootprint : t.footprint = t.bytes.length := by rw [HostTensor.footprint, hside]
    have hle := footprint_le_deviceBytes ht
    rw [hfootprint, ← hused] at hle
    refine ⟨(hsized t ht).1, (hsized t ht).2, ?_⟩
    rw [Budget.used_giveBack hle]
    exact Nat.sub_add_cancel hle

/-- Two bytes stay counted while their release waits for a pin. -/
theorem History.memory_exact_deferred :
    let made := (HostDevice.new 8 64).allocate ⟨.u8, [2]⟩ .device none
    let d := ((made.2.pin 1).release ⟨⟨1, ⟨.u8, [2]⟩, .device⟩, [0, 0]⟩ false).2
    History 8 64 d [] ∧ d.deferred.map (·.serial) = [1] ∧ d.memory.used = 2 ∧
      d.memory.used.toNat = deviceBytes ([] ++ d.deferred) ∧ d.memory.available? = some 6 := by
  have hnew : History 8 64 (.new 8 64) [] := .new
  have hmade := hnew.allocate ⟨.u8, [2]⟩ .device none
  have h := (hmade.pin 1).release (t := ⟨⟨1, ⟨.u8, [2]⟩, .device⟩, [0, 0]⟩) (.refl _) false
  obtain ⟨-, hused, -, havailable, -⟩ := h.memory_exact
  exact ⟨h, by decide, by decide, hused, havailable⟩

end HostDevice

end TensorMachine
