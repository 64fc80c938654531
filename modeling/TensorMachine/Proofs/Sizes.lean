import TensorMachine.Device.Symbolic
import TensorMachine.Proofs.HostCalls
import TensorMachine.Proofs.RoundTrip
import Mathlib.Data.List.TakeWhile

/-!
# Sizes of tensors

The elements of a tensor are counted by multiplying its dimensions from the left, and a partial
product that does not fit ends the count. Without a zero among the dimensions no partial product is
larger than the whole one, so that the count is there exactly if it fits. A zero makes the product
zero, but not the partial products in front of it: if these do not fit, then the zero comes too late
and a tensor without elements has no size. This is the only case in which the order of the
dimensions matters.
-/

namespace TensorMachine

/-- The product of dimensions, however large. -/
def dimsProduct (dims : List UInt32) : Nat := (dims.map UInt32.toNat).prod

lemma dimsProduct_cons (d : UInt32) (dims : List UInt32) :
    dimsProduct (d :: dims) = d.toNat * dimsProduct dims := List.prod_cons

lemma dimsProduct_perm {dims dims' : List UInt32} (h : dims.Perm dims') :
    dimsProduct dims = dimsProduct dims' := (h.map UInt32.toNat).prod_nat

lemma dimsProduct_of_zero_mem {dims : List UInt32} (h : 0 ∈ dims) : dimsProduct dims = 0 :=
  List.prod_eq_zero_iff_exists_zero_nat.mpr ⟨0, List.mem_map.mpr ⟨0, h, rfl⟩, rfl⟩

/-- The dimensions in front of the first zero. -/
def leadingDims (dims : List UInt32) : List UInt32 := dims.takeWhile (· ≠ 0)

lemma leadingDims_of_zero_not_mem {dims : List UInt32} (h : 0 ∉ dims) : leadingDims dims = dims := by
  rw [leadingDims, List.takeWhile_eq_self_iff]
  intro d hd
  have hne : d ≠ 0 := fun hzero => h (hzero ▸ hd)
  simpa using hne

lemma leadingDims_cons_of_ne {d : UInt32} (h : d ≠ 0) (dims : List UInt32) :
    leadingDims (d :: dims) = d :: leadingDims dims := by
  simp [leadingDims, h]

lemma dimsProduct_leadingDims_pos (dims : List UInt32) : 0 < dimsProduct (leadingDims dims) := by
  rw [dimsProduct, List.prod_pos_iff_forall_pos_nat]
  intro n hn
  obtain ⟨d, hd, rfl⟩ := List.mem_map.mp hn
  have hne : d ≠ 0 := by simpa using List.mem_takeWhile_imp hd
  exact Nat.pos_of_ne_zero fun h => hne (UInt32.toNat_inj.mp h)

/-- The dimensions in front of the first zero decide whether a product has an end: they give the
largest of its partial products. -/
lemma foldlM_boundedMul (dims : List UInt32) {n : Nat} (hn : n < UInt64.size) :
    dims.foldlM (fun n d => boundedMul n d.toNat) n =
      if n * dimsProduct (leadingDims dims) < UInt64.size then some (n * dimsProduct dims)
      else none := by
  induction dims generalizing n with
  | nil => simp [leadingDims, dimsProduct, hn]
  | cons d dims ih =>
    rw [List.foldlM_cons, dimsProduct_cons, ← Nat.mul_assoc]
    by_cases hzero : d = 0
    · subst hzero
      have hstart : n * dimsProduct (leadingDims (0 :: dims)) < UInt64.size := by
        simpa [leadingDims, dimsProduct] using hn
      have hstep : boundedMul n (0 : UInt32).toNat = some 0 :=
        boundedMul_eq_some_iff.mpr ⟨rfl, by decide⟩
      rw [hstep, if_pos hstart]
      have hrest := ih (n := 0) (by decide)
      rw [Nat.zero_mul, if_pos (by decide)] at hrest
      simpa using hrest
    · rw [leadingDims_cons_of_ne hzero, dimsProduct_cons, ← Nat.mul_assoc]
      by_cases hfit : n * d.toNat < UInt64.size
      · have hstep : boundedMul n d.toNat = some (n * d.toNat) := if_pos hfit
        rw [hstep]
        exact ih hfit
      · have hstep : boundedMul n d.toNat = none := if_neg hfit
        have hlarger := Nat.le_mul_of_pos_right (n * d.toNat) (dimsProduct_leadingDims_pos dims)
        rw [hstep, if_neg (by omega)]
        rfl

namespace TensorType

/-- The number of elements, however large. -/
def elements (t : TensorType) : Nat := dimsProduct t.dims

/-- The number of bytes that the elements take, however large. -/
def extent (t : TensorType) : Nat := t.elements * t.element.width

/-- A zero stands behind dimensions whose product is already too large. -/
def ZeroTooLate (t : TensorType) : Prop :=
  0 ∈ t.dims ∧ UInt64.size ≤ dimsProduct (leadingDims t.dims)

instance (t : TensorType) : Decidable t.ZeroTooLate := inferInstanceAs (Decidable (_ ∧ _))

variable {t : TensorType}

lemma elements_le_extent (t : TensorType) : t.elements ≤ t.extent :=
  Nat.le_mul_of_pos_right t.elements t.element.width_pos

lemma leading_fits_iff (t : TensorType) :
    dimsProduct (leadingDims t.dims) < UInt64.size ↔
      t.elements < UInt64.size ∧ ¬t.ZeroTooLate := by
  by_cases hzero : 0 ∈ t.dims
  · have helements : t.elements = 0 := dimsProduct_of_zero_mem hzero
    have hpos : 0 < UInt64.size := by decide
    simp [ZeroTooLate, hzero, helements, hpos]
  · simp [ZeroTooLate, hzero, leadingDims_of_zero_not_mem hzero, elements]

lemma count?_eq (t : TensorType) :
    t.count? = if t.elements < UInt64.size ∧ ¬t.ZeroTooLate then some t.elements else none := by
  have hcount := foldlM_boundedMul t.dims (n := 1) (by decide)
  rw [Nat.one_mul, Nat.one_mul] at hcount
  rw [count?, hcount]
  simp only [leading_fits_iff]
  rfl

lemma byteSize?_eq (t : TensorType) :
    t.byteSize? = if t.extent < UInt64.size ∧ ¬t.ZeroTooLate then some t.extent else none := by
  rw [byteSize?, count?_eq]
  by_cases hlate : t.ZeroTooLate
  · simp [hlate]
  · have hle := t.elements_le_extent
    by_cases helements : t.elements < UInt64.size
    · simp [hlate, helements, boundedMul, extent]
    · have hextent : ¬t.extent < UInt64.size := by omega
      simp [helements, hextent]

lemma count?_eq_some_iff {n : Nat} :
    t.count? = some n ↔ n = t.elements ∧ n < UInt64.size ∧ ¬t.ZeroTooLate := by
  rw [count?_eq]
  split <;> grind

lemma count?_eq_none_iff : t.count? = none ↔ UInt64.size ≤ t.elements ∨ t.ZeroTooLate := by
  rw [count?_eq]
  split <;> grind

lemma byteSize?_eq_some_iff {n : Nat} :
    t.byteSize? = some n ↔ n = t.extent ∧ n < UInt64.size ∧ ¬t.ZeroTooLate := by
  rw [byteSize?_eq]
  split <;> grind

lemma byteSize?_eq_none_iff : t.byteSize? = none ↔ UInt64.size ≤ t.extent ∨ t.ZeroTooLate := by
  rw [byteSize?_eq]
  split <;> grind

end TensorType

/-!
### Refusals
-/

lemma TensorType.addressableSize_eq_unaddressable_iff {t : TensorType} :
    t.addressableSize = .error (.invalidArgument (.unaddressable t)) ↔ t.byteSize? = none := by
  unfold addressableSize
  cases t.byteSize? <;> simp

lemma Provider.symbolic_allocate_unaddressable_iff {t : TensorType} {location : Residence} :
    (Provider.symbolic.allocate t location ()).1 = .error (.invalidArgument (.unaddressable t)) ↔
      t.byteSize? = none := by
  rw [← TensorType.addressableSize_eq_unaddressable_iff]
  change t.addressableSize.map (fun _ => t) = _ ↔ _
  cases t.addressableSize <;> simp [Except.map]

namespace HostDevice

variable {d : HostDevice} {type : TensorType} {location : Residence} {data? : Option Bytes}

lemma prepare_unaddressable_iff :
    d.prepare type location data? = .error (.invalidArgument (.unaddressable type)) ↔
      type.byteSize? = none := by
  rw [← TensorType.addressableSize_eq_unaddressable_iff]
  refine ⟨fun h => ?_, fun h => Except.bind_eq_error_iff.mpr (.inl h)⟩
  rcases Except.bind_eq_error_iff.mp h with hsize | ⟨size, -, h⟩
  · exact hsize
  rcases Except.bind_eq_error_iff.mp h with hcontents | ⟨_, -, h⟩
  · cases data? with
    | none => cases hcontents
    | some data =>
      by_cases hlength : data.length = size <;> simp [checkContents, hlength] at hcontents
  rcases Except.bind_eq_error_iff.mp h with hlimit | ⟨_, -, h⟩
  · exact (transient_of_checkAllocation hlimit).elim
  rcases Except.bind_eq_error_iff.mp h with hcharge | ⟨_, -, h⟩
  · exact (transient_of_charge hcharge).elim
  · cases h

/-- An allocation that is not armed to fail is refused as too large to address exactly if its type
has no size. -/
lemma allocate_unaddressable_iff :
    (d.allocate type location data?).1 = .error (.invalidArgument (.unaddressable type)) ↔
      .allocate ∉ d.armed ∧ type.byteSize? = none := by
  have hiff : d.prepare type location data? = .error (.invalidArgument (.unaddressable type)) ↔
      type.byteSize? = none := prepare_unaddressable_iff
  rw [← hiff]
  rcases allocate_outcome d type location data? with
    ⟨e, d', hrefused, hcall⟩ | ⟨bytes, memory, -, hprepare, hcall⟩
  · rw [hcall]
    cases hrefused with
    | armed harmed => simp [harmed]
    | checked harmed hcheck => simp [harmed, hcheck]
  · rw [hcall, hprepare]
    simp

end HostDevice

/-- A record of an allocation is malformed for its size exactly if its type has none. -/
lemma Instruction.record_unaddressable_iff {t : TensorType} (hrank : t.rank ≤ 255) {index : Nat}
    {output : TensorId} {residence : Residence} :
    (allocate output t residence).record.instruction index =
      .error (.malformed index (.unaddressable t)) ↔ t.byteSize? = none := by
  have hcheck : (allocate output t residence).checkEncodable index = .ok () :=
    TensorType.checkRank_eq_ok_iff.mpr hrank
  by_cases hsize : t.byteSize? = none
  · exact iff_of_true (instruction_record_of_flaw hcheck (if_pos hsize)) hsize
  · rw [(framed_record hcheck (if_neg hsize)).instruction_eq_ok index]
    simp [hsize]

namespace TensorType

/-- Counts and sizes are those of the mathematical product, and there is none exactly if this does
not fit or if a zero comes too late. So the order of the dimensions matters for no other reason, and
devices and programs refuse an allocation as too large to address in these two cases only. -/
theorem sizes_exact (t : TensorType) :
    (∀ n, t.count? = some n ↔ n = t.elements ∧ n < UInt64.size ∧ ¬t.ZeroTooLate) ∧
    (t.count? = none ↔ UInt64.size ≤ t.elements ∨ t.ZeroTooLate) ∧
    (∀ n, t.byteSize? = some n ↔ n = t.extent ∧ n < UInt64.size ∧ ¬t.ZeroTooLate) ∧
    (t.byteSize? = none ↔ UInt64.size ≤ t.extent ∨ t.ZeroTooLate) ∧
    (∀ dims, t.dims.Perm dims → ¬t.ZeroTooLate → ¬ZeroTooLate ⟨t.element, dims⟩ →
      count? ⟨t.element, dims⟩ = t.count? ∧ byteSize? ⟨t.element, dims⟩ = t.byteSize?) ∧
    (∀ (d : HostDevice) location data?,
      (d.allocate t location data?).1 = .error (.invalidArgument (.unaddressable t)) ↔
        .allocate ∉ d.armed ∧ (UInt64.size ≤ t.extent ∨ t.ZeroTooLate)) ∧
    (∀ location,
      (Provider.symbolic.allocate t location ()).1 =
          .error (.invalidArgument (.unaddressable t)) ↔
        UInt64.size ≤ t.extent ∨ t.ZeroTooLate) ∧
    (t.rank ≤ 255 → ∀ index output residence,
      (Instruction.allocate output t residence).record.instruction index =
          .error (.malformed index (.unaddressable t)) ↔
        UInt64.size ≤ t.extent ∨ t.ZeroTooLate) := by
  refine ⟨fun n => count?_eq_some_iff, count?_eq_none_iff, fun n => byteSize?_eq_some_iff,
    byteSize?_eq_none_iff, fun dims hperm hlate hlate' => ?_, fun d location data? => ?_,
    fun location => ?_, fun hrank index output residence => ?_⟩
  · have helements : elements ⟨t.element, dims⟩ = t.elements := (dimsProduct_perm hperm).symm
    have hextent : extent ⟨t.element, dims⟩ = t.extent := by rw [extent, helements, extent]
    rw [count?_eq, count?_eq, byteSize?_eq, byteSize?_eq, helements, hextent]
    simp only [hlate, hlate', and_self]
  · rw [HostDevice.allocate_unaddressable_iff, byteSize?_eq_none_iff]
  · rw [Provider.symbolic_allocate_unaddressable_iff, byteSize?_eq_none_iff]
  · rw [Instruction.record_unaddressable_iff hrank, byteSize?_eq_none_iff]

/-- A zero behind one large dimension comes early enough: the type has the size of the one with the
zero in front, and a device makes room for it. -/
theorem sizes_exact_reordered :
    let m : UInt32 := 4294967295
    let t : TensorType := ⟨.f32, [0, m, m, m]⟩
    t.dims.Perm [m, 0, m, m] ∧ ¬t.ZeroTooLate ∧ ¬ZeroTooLate ⟨.f32, [m, 0, m, m]⟩ ∧
      byteSize? ⟨.f32, [m, 0, m, m]⟩ = t.byteSize? ∧ t.byteSize? = some 0 ∧ t.rank ≤ 255 ∧
      (Instruction.allocate 1 t .host).record.instruction 0 ≠
        .error (.malformed 0 (.unaddressable t)) := by
  intro m t
  obtain ⟨-, -, hsize, -, hperm, -, -, hrecord⟩ := sizes_exact t
  have hswap : t.dims.Perm [m, 0, m, m] := .swap m 0 [m, m]
  have hlate : ¬t.ZeroTooLate := by decide
  have hlate' : ¬ZeroTooLate ⟨.f32, [m, 0, m, m]⟩ := by decide
  have hrank : t.rank ≤ 255 := by decide
  refine ⟨hswap, hlate, hlate', (hperm _ hswap hlate hlate').2,
    (hsize 0).mpr ⟨by decide, by decide, hlate⟩, hrank, ?_⟩
  exact fun h => absurd ((hrecord hrank 0 1 .host).mp h) (by decide)

/-- Behind three large dimensions a zero comes too late: the type has no elements, no count and no
size, and no device makes room for it. With the zero in front the count is zero. -/
theorem count?_of_late_zero :
    let m : UInt32 := 4294967295
    let t : TensorType := ⟨.f32, [m, m, m, 0]⟩
    t.elements = 0 ∧ t.count? = none ∧ t.extent = 0 ∧ t.byteSize? = none ∧
      t.dims.Perm [0, m, m, m] ∧ count? ⟨.f32, [0, m, m, m]⟩ = some 0 ∧
      ((HostDevice.new 64 64).allocate t .host none).1 =
        .error (.invalidArgument (.unaddressable t)) := by
  decide

end TensorType

end TensorMachine
