import TensorMachine.Proofs.HostOutcomes
import Mathlib.Data.List.Perm.Subperm

/-!
# What the calls of the host device do

Each call of the host device is described once: how it changes the serials that are outstanding,
what handle it makes, for which causes it refuses, and whether it touches pins and deferred releases.
From these descriptions follows what is true of a device after any calls whatsoever and of the
handles that are held outside of it.
-/

namespace TensorMachine

/-- The refusals for lack of memory, armed failures and pins. They tell nothing of the arguments. -/
def DeviceError.Transient : DeviceError → Prop
  | outOfMemory _ _ | backend _ | pendingReferences _ => True
  | _ => False

lemma Budget.transient_of_reserve {b : Budget} {size : Nat} {e : DeviceError}
    (h : b.reserve size = .error e) : e.Transient := by
  simp only [reserve] at h
  split at h
  · cases h
  · cases h
    trivial

lemma Kernel.mem_of_resultType {k : Kernel} {operands : List TensorType} {type : TensorType}
    (h : k.resultType operands = .ok type) : type ∈ operands := by
  obtain ⟨hcount, hsame, -⟩ := resultType_eq_ok_iff.mp h
  have hpos : 0 < operands.length := hcount ▸ k.arity_pos
  obtain ⟨operand, hmem⟩ := List.exists_mem_of_length_pos hpos
  exact hsame operand hmem ▸ hmem

namespace HostDevice

/-- The same serials were issued and are outstanding. -/
structure SameHandles (d d' : HostDevice) : Prop where
  nextSerial : d'.nextSerial = d.nextSerial
  outstanding : d'.outstanding = d.outstanding

lemma SameHandles.rfl {d : HostDevice} : d.SameHandles d := ⟨Eq.refl _, Eq.refl _⟩

lemma Refused.sameHandles {α : Type} {d d' : HostDevice} {call : DeviceCall}
    {check : Except DeviceError α} {e : DeviceError} (h : d.Refused call check e d') :
    d.SameHandles d' := by
  cases h <;> exact ⟨rfl, rfl⟩

lemma sameHandles_unpin (d : HostDevice) (serial : Nat) : d.SameHandles (d.unpin serial) := by
  rcases unpin_outcome d serial with ⟨-, heq⟩ | ⟨t, -, -, -, -, heq⟩ <;>
    exact heq ▸ ⟨rfl, rfl⟩

/-!
### Calls
-/

lemma transient_of_checkAllocation {d : HostDevice} {size : Nat} {e : DeviceError}
    (h : d.checkAllocation size = .error e) : e.Transient := by
  unfold checkAllocation at h
  split at h
  · cases h
  · cases h
    trivial

lemma transient_of_charge {memory : Budget} {location : Residence} {size : Nat} {e : DeviceError}
    (h : charge memory location size = .error e) : e.Transient := by
  cases location with
  | host => cases h
  | device => exact Budget.transient_of_reserve h

lemma transient_of_moveMemory {memory : Budget} {destination : Residence} {size : Nat}
    {e : DeviceError} (h : moveMemory memory destination size = .error e) : e.Transient := by
  cases destination with
  | host => cases h
  | device => exact Budget.transient_of_reserve h

lemma prepare_error_cases {d : HostDevice} {type : TensorType} {location : Residence}
    {e : DeviceError} (h : d.prepare type location none = .error e) :
    e.Transient ∨ type.addressableSize = .error e := by
  rcases Except.bind_eq_error_iff.mp h with hsize | ⟨size, -, h⟩
  · exact .inr hsize
  rcases Except.bind_eq_error_iff.mp h with hcontents | ⟨_, -, h⟩
  · cases hcontents
  rcases Except.bind_eq_error_iff.mp h with hlimit | ⟨_, -, h⟩
  · exact .inl (transient_of_checkAllocation hlimit)
  rcases Except.bind_eq_error_iff.mp h with hcharge | ⟨_, -, h⟩
  · exact .inl (transient_of_charge hcharge)
  · cases h

/-- An allocation is refused, or it issues the next serial for a type with a size. -/
lemma allocate_cases (d : HostDevice) (type : TensorType) (location : Residence)
    (data? : Option Bytes) :
    (∃ e d', d.allocate type location data? = (.error e, d') ∧ d.SameHandles d' ∧
      (data? = none → e.Transient ∨ type.addressableSize = .error e)) ∨
    ∃ t d', d.allocate type location data? = (.ok t, d') ∧
      t.toTensorLabel = ⟨d.nextSerial, type, location⟩ ∧ type.byteSize? ≠ none ∧
      d'.nextSerial = d.nextSerial + 1 ∧ d'.outstanding = d.nextSerial :: d.outstanding := by
  rcases allocate_outcome d type location data? with
    ⟨e, d', hrefused, hcall⟩ | ⟨bytes, memory, -, hprepare, hcall⟩
  · refine .inl ⟨e, d', hcall, hrefused.sameHandles, ?_⟩
    rintro rfl
    cases hrefused with
    | armed => exact .inl trivial
    | checked _ hcheck => exact prepare_error_cases hcheck
  · have hsize : type.byteSize? ≠ none := by simp [(prepare_eq_ok hprepare).1]
    exact .inr ⟨_, _, hcall, rfl, hsize, rfl, rfl⟩

/-- A tensor whose serial is outstanding is taken back, even if the call is refused. -/
lemma release_cases (d : HostDevice) (t : HostTensor) (force : Bool) :
    (t.serial ∉ d.outstanding ∧
      d.release t force = (.error (.invalidHandle t.toTensorLabel .notOwned), d)) ∨
    t.serial ∈ d.outstanding ∧ ∃ answer d', d.release t force = (answer, d') ∧
      (∀ e, answer = .error e → e.Transient) ∧ d'.nextSerial = d.nextSerial ∧
      d'.outstanding = d.outstanding.erase t.serial := by
  rcases release_outcome d t force with
    hdead | ⟨hlive, ⟨-, hcall⟩ | ⟨-, -, -, hcall⟩ | ⟨-, -, hcall⟩⟩
  · exact .inl hdead
  · exact .inr ⟨hlive, _, _, hcall, by rintro e ⟨⟩; trivial, rfl, rfl⟩
  · exact .inr ⟨hlive, _, _, hcall, by rintro e ⟨⟩; trivial, rfl, rfl⟩
  · exact .inr ⟨hlive, _, _, hcall, nofun, rfl, rfl⟩

/-- A transfer puts the tensor to the other side, or leaves it as it was. -/
lemma transfer_cases (d : HostDevice) (destination : Residence) (t : HostTensor) :
    (∃ e d', d.transfer destination t = (.error e, t, d') ∧ d.SameHandles d' ∧
      (t.serial ∈ d.outstanding → t.location = destination.opposite → e.Transient)) ∨
    ∃ d', d.transfer destination t = (.ok (), { t with location := destination }, d') ∧
      d.SameHandles d' := by
  rcases transfer_outcome d destination t with
    ⟨e, d', hrefused, hcall⟩ | ⟨memory, -, -, hcall⟩
  · refine .inl ⟨e, d', hcall, hrefused.sameHandles, fun hlive hside => ?_⟩
    cases hrefused with
    | armed => trivial
    | checked _ hcheck =>
      rw [prepareTransfer, checkLive_eq_ok_iff.mpr hlive, checkLocation_eq_ok_iff.mpr hside]
        at hcheck
      exact transient_of_moveMemory hcheck
  · exact .inr ⟨_, hcall, rfl, rfl⟩

lemma prepareCompute_error_cases {d : HostDevice} {kernel : Kernel} {operands : List HostTensor}
    {e : DeviceError} (h : d.prepareCompute kernel operands = .error e)
    (hoperands : ∀ t ∈ operands, t.serial ∈ d.outstanding ∧ t.location = .device)
    (hsizes : ∀ t ∈ operands, t.type.byteSize? ≠ none) :
    e.Transient ∨ kernel.resultType (operands.map (·.type)) = .error e := by
  rcases Except.bind_eq_error_iff.mp h with hcheck | ⟨_, -, h⟩
  · rw [checkOperands_eq_ok_iff.mpr hoperands] at hcheck
    cases hcheck
  rcases Except.bind_eq_error_iff.mp h with htype | ⟨type, htype, h⟩
  · exact .inr htype
  rcases Except.bind_eq_error_iff.mp h with hsize | ⟨size, -, h⟩
  · obtain ⟨t, ht, rfl⟩ := List.mem_map.mp (Kernel.mem_of_resultType htype)
    obtain ⟨size, hok⟩ := Option.ne_none_iff_exists'.mp (hsizes t ht)
    rw [TensorType.addressableSize_eq_ok_iff.mpr hok] at hsize
    cases hsize
  rcases Except.bind_eq_error_iff.mp h with hlimit | ⟨_, -, h⟩
  · exact .inl (transient_of_checkAllocation hlimit)
  rcases Except.bind_eq_error_iff.mp h with hreserve | ⟨_, -, h⟩
  · exact .inl (Budget.transient_of_reserve hreserve)
  · cases h

/-- A computation is refused, or it issues the next serial for a tensor of the result type. -/
lemma compute_cases (d : HostDevice) (kernel : Kernel) (operands : List HostTensor) :
    (∃ e d', d.compute kernel operands = (.error e, d') ∧ d.SameHandles d' ∧
      ((∀ t ∈ operands, t.serial ∈ d.outstanding ∧ t.location = .device) →
        (∀ t ∈ operands, t.type.byteSize? ≠ none) →
          e.Transient ∨ kernel.resultType (operands.map (·.type)) = .error e)) ∨
    ∃ t d', d.compute kernel operands = (.ok t, d') ∧ t.serial = d.nextSerial ∧
      kernel.resultType (operands.map (·.type)) = .ok t.type ∧ t.location = .device ∧
      t.type.byteSize? ≠ none ∧ d'.nextSerial = d.nextSerial + 1 ∧
      d'.outstanding = d.nextSerial :: d.outstanding := by
  rcases compute_outcome d kernel operands with
    ⟨e, d', hrefused, hcall⟩ | ⟨type, memory, -, hprepare, hcall⟩
  · refine .inl ⟨e, d', hcall, hrefused.sameHandles, fun hoperands hsizes => ?_⟩
    cases hrefused with
    | armed => exact .inl trivial
    | checked _ hcheck => exact prepareCompute_error_cases hcheck hoperands hsizes
  · obtain ⟨-, htype, size, hsize, -, -⟩ := prepareCompute_eq_ok hprepare
    exact .inr ⟨_, _, hcall, rfl, htype, rfl, by simp [issue, hsize], rfl, rfl⟩

/-!
### Duties
-/

/-- No release was deferred, and no failure was armed or pin set. -/
structure SameDuties (d d' : HostDevice) : Prop where
  deferred : d'.deferred = d.deferred
  pins : d'.pins = d.pins
  armed : ∀ call ∈ d'.armed, call ∈ d.armed

lemma SameDuties.rfl {d : HostDevice} : d.SameDuties d := ⟨Eq.refl _, Eq.refl _, fun _ h => h⟩

lemma Refused.sameDuties {α : Type} {d d' : HostDevice} {call : DeviceCall}
    {check : Except DeviceError α} {e : DeviceError} (h : d.Refused call check e d') :
    d.SameDuties d' := by
  cases h with
  | armed => exact ⟨rfl, rfl, fun _ h => List.mem_of_mem_erase h⟩
  | checked => exact .rfl

lemma sameDuties_allocate {d d' : HostDevice} {type : TensorType} {location : Residence}
    {data? : Option Bytes} {answer : Except DeviceError HostTensor}
    (hcall : d.allocate type location data? = (answer, d')) : d.SameDuties d' := by
  rcases allocate_outcome d type location data? with
    ⟨e, _, hrefused, hanswer⟩ | ⟨bytes, memory, -, -, hanswer⟩
  · cases hcall.symm.trans hanswer
    exact hrefused.sameDuties
  · cases hcall.symm.trans hanswer
    exact ⟨rfl, rfl, fun _ h => h⟩

lemma sameDuties_transfer {d d' : HostDevice} {destination : Residence} {t left : HostTensor}
    {answer : Except DeviceError Unit}
    (hcall : d.transfer destination t = (answer, left, d')) : d.SameDuties d' := by
  rcases transfer_outcome d destination t with
    ⟨e, _, hrefused, hanswer⟩ | ⟨memory, -, -, hanswer⟩
  · cases hcall.symm.trans hanswer
    exact hrefused.sameDuties
  · cases hcall.symm.trans hanswer
    exact ⟨rfl, rfl, fun _ h => h⟩

lemma sameDuties_compute {d d' : HostDevice} {kernel : Kernel} {operands : List HostTensor}
    {answer : Except DeviceError HostTensor}
    (hcall : d.compute kernel operands = (answer, d')) : d.SameDuties d' := by
  rcases compute_outcome d kernel operands with
    ⟨e, _, hrefused, hanswer⟩ | ⟨type, memory, -, -, hanswer⟩
  · cases hcall.symm.trans hanswer
    exact hrefused.sameDuties
  · cases hcall.symm.trans hanswer
    exact ⟨rfl, rfl, fun _ h => h⟩

/-!
### Histories
-/

/-- The states that a host device comes to, with handles that it has issued and that are held
outside. A call may be given any handle, also one of another device, and another device may be
given a held handle to transfer. Handles that are held may be given away. -/
inductive Reached : HostDevice → List HostTensor → Prop
  | new (memory : UInt64) (maxAllocation : Nat) : Reached (.new memory maxAllocation) []
  | failNext {d : HostDevice} {held : List HostTensor} (h : Reached d held) (call : DeviceCall) :
    Reached (d.failNext call) held
  | pin {d : HostDevice} {held : List HostTensor} (h : Reached d held) (serial : Nat) :
    Reached (d.pin serial) held
  | unpin {d : HostDevice} {held : List HostTensor} (h : Reached d held) (serial : Nat) :
    Reached (d.unpin serial) held
  | allocate {d : HostDevice} {held : List HostTensor} (h : Reached d held) (type : TensorType)
    (location : Residence) (data? : Option Bytes) :
    Reached (d.allocate type location data?).2
      ((d.allocate type location data?).1.toOption.toList ++ held)
  | release {d : HostDevice} {held : List HostTensor} (h : Reached d held) (t : HostTensor)
    (force : Bool) : Reached (d.release t force).2 held
  | transfer {d : HostDevice} {held : List HostTensor} (h : Reached d held)
    (destination : Residence) (t : HostTensor) : Reached (d.transfer destination t).2.2 held
  | compute {d : HostDevice} {held : List HostTensor} (h : Reached d held) (kernel : Kernel)
    (operands : List HostTensor) :
    Reached (d.compute kernel operands).2 ((d.compute kernel operands).1.toOption.toList ++ held)
  | moved {d : HostDevice} {t : HostTensor} {held : List HostTensor} (h : Reached d (t :: held))
    (side : Residence) : Reached d ({ t with location := side } :: held)
  | given {d : HostDevice} {held kept : List HostTensor} (h : Reached d held)
    (hkept : kept.Subperm held) : Reached d kept

lemma outstanding_lt_of_issue {d d' : HostDevice} (h : ∀ n ∈ d.outstanding, n < d.nextSerial)
    (hnext : d'.nextSerial = d.nextSerial + 1)
    (hout : d'.outstanding = d.nextSerial :: d.outstanding) :
    ∀ n ∈ d'.outstanding, n < d'.nextSerial := by
  intro n hn
  rw [hnext]
  rw [hout] at hn
  rcases List.mem_cons.mp hn with rfl | hn
  · exact Nat.lt_succ_self d.nextSerial
  · exact Nat.lt_succ_of_lt (h n hn)

/-- What is true of a device and the handles that are held outside of it. -/
structure Ledger (d : HostDevice) (held : List HostTensor) : Prop where
  outstanding_lt : ∀ n ∈ d.outstanding, n < d.nextSerial
  held_lt : ∀ t ∈ held, t.serial < d.nextSerial
  distinct : (held.map (·.serial)).Nodup
  addressable : ∀ t ∈ held, t.type.byteSize? ≠ none

namespace Ledger

variable {d d' : HostDevice} {held : List HostTensor}

lemma of_outstanding (h : Ledger d held) (hnext : d'.nextSerial = d.nextSerial)
    (hsub : ∀ n ∈ d'.outstanding, n ∈ d.outstanding) : Ledger d' held where
  outstanding_lt n hn := hnext ▸ h.outstanding_lt n (hsub n hn)
  held_lt t ht := hnext ▸ h.held_lt t ht
  distinct := h.distinct
  addressable := h.addressable

lemma of_sameHandles (h : Ledger d held) (hsame : d.SameHandles d') : Ledger d' held :=
  h.of_outstanding hsame.nextSerial fun _ hn => hsame.outstanding ▸ hn

lemma of_issue (h : Ledger d held) {t : HostTensor} (hserial : t.serial = d.nextSerial)
    (hsize : t.type.byteSize? ≠ none) (hnext : d'.nextSerial = d.nextSerial + 1)
    (hout : d'.outstanding = d.nextSerial :: d.outstanding) : Ledger d' (t :: held) where
  outstanding_lt := outstanding_lt_of_issue h.outstanding_lt hnext hout
  held_lt x hx := by
    rw [hnext]
    rcases List.mem_cons.mp hx with rfl | hx
    · exact hserial ▸ Nat.lt_succ_self d.nextSerial
    · exact Nat.lt_succ_of_lt (h.held_lt x hx)
  distinct := by
    rw [List.map_cons, List.nodup_cons]
    refine ⟨fun hmem => ?_, h.distinct⟩
    obtain ⟨x, hx, hxt⟩ := List.mem_map.mp hmem
    have hlt := h.held_lt x hx
    rw [hxt, hserial] at hlt
    exact Nat.lt_irrefl d.nextSerial hlt
  addressable := List.forall_mem_cons.mpr ⟨hsize, h.addressable⟩

lemma of_subperm (h : Ledger d held) {kept : List HostTensor} (hkept : kept.Subperm held) :
    Ledger d kept where
  outstanding_lt := h.outstanding_lt
  held_lt t ht := h.held_lt t (hkept.subset ht)
  distinct := by
    obtain ⟨l, hperm, hsub⟩ := hkept
    exact (hperm.map _).nodup_iff.mp (h.distinct.sublist (hsub.map _))
  addressable t ht := h.addressable t (hkept.subset ht)

end Ledger

/-- Held handles differ in their serials, and new ones will differ from them. -/
theorem Reached.ledger {d : HostDevice} {held : List HostTensor} (h : Reached d held) :
    Ledger d held := by
  induction h with
  | new memory maxAllocation => exact ⟨by simp [HostDevice.new], by simp, List.nodup_nil, by simp⟩
  | failNext _ call ih => exact ih.of_sameHandles ⟨rfl, rfl⟩
  | pin _ serial ih => exact ih.of_sameHandles ⟨rfl, rfl⟩
  | unpin _ serial ih => exact ih.of_sameHandles (sameHandles_unpin _ serial)
  | @allocate d held _ type location data? ih =>
    rcases allocate_cases d type location data? with
      ⟨e, d', hcall, hsame, -⟩ | ⟨t, d', hcall, hlabel, hsize, hnext, hout⟩
    · rw [hcall]
      exact ih.of_sameHandles hsame
    · rw [hcall]
      exact ih.of_issue (congrArg TensorLabel.serial hlabel)
        ((congrArg TensorLabel.type hlabel).symm ▸ hsize) hnext hout
  | @release d held _ t force ih =>
    rcases release_cases d t force with ⟨-, hcall⟩ | ⟨-, answer, d', hcall, -, hnext, hout⟩
    · rw [hcall]
      exact ih
    · rw [hcall]
      exact ih.of_outstanding hnext fun n hn => List.mem_of_mem_erase (hout ▸ hn)
  | @transfer d held _ destination t ih =>
    rcases transfer_cases d destination t with ⟨e, d', hcall, hsame, -⟩ | ⟨d', hcall, hsame⟩
    · rw [hcall]
      exact ih.of_sameHandles hsame
    · rw [hcall]
      exact ih.of_sameHandles hsame
  | @compute d held _ kernel operands ih =>
    rcases compute_cases d kernel operands with
      ⟨e, d', hcall, hsame, -⟩ | ⟨t, d', hcall, hserial, -, -, hsize, hnext, hout⟩
    · rw [hcall]
      exact ih.of_sameHandles hsame
    · rw [hcall]
      exact ih.of_issue hserial hsize hnext hout
  | @moved d t held _ side ih =>
    refine ⟨ih.outstanding_lt, ?_, ih.distinct, ?_⟩
    · rintro x (_ | ⟨_, hx⟩)
      · exact ih.held_lt t List.mem_cons_self
      · exact ih.held_lt x (List.mem_cons_of_mem t hx)
    · rintro x (_ | ⟨_, hx⟩)
      · exact ih.addressable t List.mem_cons_self
      · exact ih.addressable x (List.mem_cons_of_mem t hx)
  | given _ hkept ih => exact ih.of_subperm hkept

end HostDevice

end TensorMachine
