import TensorMachine.Proofs.HostCalls
import TensorMachine.Proofs.HostMemory

/-!
# Turns of a host device

The requests that the holder of its handles makes of a host device, one after the other, as data, so
that what has gone before can be told. Of each request it is said once what it does to the
outstanding serials, to the pins and to the deferred releases.
-/

namespace TensorMachine

namespace HostDevice

variable {budget : UInt64} {maxAllocation : Nat}

/-!
### Courses of requests
-/

/-- What the holder of the handles of a host device asks of it. -/
inductive Request where
  | failNext (call : DeviceCall)
  | pin (serial : Nat)
  | unpin (serial : Nat)
  | allocate (type : TensorType) (location : Residence) (data? : Option Bytes)
  | release (t : HostTensor) (force : Bool)
  | transfer (destination : Residence) (t : HostTensor)
  | compute (kernel : Kernel) (operands : List HostTensor)

namespace Request

def serve (d : HostDevice) : Request → HostDevice
  | failNext call => d.failNext call
  | pin serial => d.pin serial
  | unpin serial => d.unpin serial
  | allocate type location data? => (d.allocate type location data?).2
  | release t force => (d.release t force).2
  | transfer destination t => (d.transfer destination t).2.2
  | compute kernel operands => (d.compute kernel operands).2

/-- The handles that a request is made with are among the held ones. -/
def Owned (tensors : List HostTensor) : Request → Prop
  | release t _ => t ∈ tensors
  | transfer _ t => t ∈ tensors
  | compute _ operands => ∀ t ∈ operands, t ∈ tensors
  | _ => True

/-- The handles that are held behind a request. -/
def held (d : HostDevice) (tensors : List HostTensor) : Request → List HostTensor
  | allocate type location data? => (d.allocate type location data?).1.toOption.toList ++ tensors
  | release t _ => tensors.erase t
  | transfer destination t => (d.transfer destination t).2.1 :: tensors.erase t
  | compute kernel operands => (d.compute kernel operands).1.toOption.toList ++ tensors
  | _ => tensors

end Request

/-- A request and the device that it was put to. -/
structure Turn where
  device : HostDevice
  request : Request

def Turn.after (turn : Turn) : HostDevice := turn.request.serve turn.device

/-- The turns that a new host device takes with its own handles, the device behind them and the
handles that are held. -/
inductive Course (budget : UInt64) (maxAllocation : Nat) :
    List Turn → HostDevice → List HostTensor → Prop
  | new : Course budget maxAllocation [] (.new budget maxAllocation) []
  | turn {turns : List Turn} {d : HostDevice} {tensors : List HostTensor}
    (h : Course budget maxAllocation turns d tensors) (request : Request)
    (howned : request.Owned tensors) :
    Course budget maxAllocation (turns ++ [⟨d, request⟩]) (Turn.after ⟨d, request⟩)
      (request.held d tensors)

namespace Course

variable {turns : List Turn} {d : HostDevice} {tensors : List HostTensor}

lemma history (h : Course budget maxAllocation turns d tensors) :
    History budget maxAllocation d tensors := by
  induction h with
  | new => exact .new
  | turn _ request howned ih =>
    cases request with
    | failNext call => exact ih.failNext call
    | pin serial => exact ih.pin serial
    | unpin serial => exact ih.unpin serial
    | allocate type location data? => exact ih.allocate type location data?
    | release t force => exact ih.release (List.perm_cons_erase howned) force
    | transfer destination t => exact ih.transfer (List.perm_cons_erase howned) destination
    | compute kernel operands => exact ih.compute kernel operands howned

/-- Each turn of a course ended a course of its own. -/
lemma before_turn (h : Course budget maxAllocation turns d tensors) {turn : Turn}
    (hturn : turn ∈ turns) :
    ∃ before held, Course budget maxAllocation before turn.device held ∧
      turn.request.Owned held ∧ ∀ x ∈ before, x ∈ turns := by
  induction h with
  | new => cases hturn
  | turn hcourse request howned ih =>
    rcases List.mem_append.mp hturn with hturn | hturn
    · obtain ⟨before, held, hbefore, hheld, hsub⟩ := ih hturn
      exact ⟨before, held, hbefore, hheld, fun x hx => List.mem_append_left _ (hsub x hx)⟩
    · rw [List.mem_singleton.mp hturn]
      exact ⟨_, _, hcourse, howned, fun x hx => List.mem_append_left _ hx⟩

end Course

/-!
### Handles
-/

lemma handles_of_release {d : HostDevice} {t : HostTensor} (hlive : t.serial ∈ d.outstanding)
    (force : Bool) :
    (d.release t force).2.nextSerial = d.nextSerial ∧
      (d.release t force).2.outstanding = d.outstanding.erase t.serial := by
  rcases d.release_cases t force with ⟨hdead, -⟩ | ⟨-, answer, d', hcall, -, hhandles⟩
  · exact absurd hlive hdead
  · rw [hcall]
    exact hhandles

/-- A serial that was issued and is no longer outstanding will not be outstanding again. -/
lemma Turn.outstanding_after {turn : Turn} {n : Nat} (hissued : n < turn.device.nextSerial)
    (hgone : n ∉ turn.device.outstanding) :
    n < turn.after.nextSerial ∧ n ∉ turn.after.outstanding := by
  obtain ⟨d, request⟩ := turn
  have hsame : ∀ d' : HostDevice, d.SameHandles d' → n < d'.nextSerial ∧ n ∉ d'.outstanding :=
    fun d' h => ⟨h.nextSerial ▸ hissued, h.outstanding ▸ hgone⟩
  have hnew : ∀ d' : HostDevice, d'.nextSerial = d.nextSerial + 1 →
      d'.outstanding = d.nextSerial :: d.outstanding → n < d'.nextSerial ∧ n ∉ d'.outstanding := by
    intro d' hnext hout
    rw [hnext, hout, List.mem_cons, not_or]
    exact ⟨Nat.lt_succ_of_lt hissued, Nat.ne_of_lt hissued, hgone⟩
  cases request with
  | failNext call => exact ⟨hissued, hgone⟩
  | pin m => exact ⟨hissued, hgone⟩
  | unpin m => exact hsame _ (sameHandles_unpin d m)
  | allocate type location data? =>
    simp only [Turn.after, Request.serve]
    rcases d.allocate_cases type location data? with
      ⟨e, d', hcall, hd', -⟩ | ⟨t, d', hcall, -, -, hnext, hout⟩ <;> rw [hcall]
    · exact hsame d' hd'
    · exact hnew d' hnext hout
  | release t force =>
    simp only [Turn.after, Request.serve]
    rcases d.release_cases t force with ⟨-, hcall⟩ | ⟨-, answer, d', hcall, -, hnext, hout⟩ <;>
      rw [hcall]
    · exact ⟨hissued, hgone⟩
    · exact ⟨hnext ▸ hissued, fun h => hgone (List.mem_of_mem_erase (hout ▸ h))⟩
  | transfer destination t =>
    simp only [Turn.after, Request.serve]
    rcases d.transfer_cases destination t with ⟨e, d', hcall, hd', -⟩ | ⟨d', hcall, hd'⟩ <;>
      rw [hcall]
    · exact hsame d' hd'
    · exact hsame d' hd'
  | compute kernel operands =>
    simp only [Turn.after, Request.serve]
    rcases d.compute_cases kernel operands with
      ⟨e, d', hcall, hd', -⟩ | ⟨t, d', hcall, -, -, -, -, hnext, hout⟩ <;> rw [hcall]
    · exact hsame d' hd'
    · exact hnew d' hnext hout

/-!
### Duties
-/

lemma last_pin_iff {d : HostDevice} {n : Nat} :
    n ∈ d.pins ∧ n ∉ d.pins.erase n ↔ d.pinCount n = 1 := by
  rw [← List.count_pos_iff, ← List.count_eq_zero, List.count_erase_self, pinCount]
  omega

namespace Request

/-- The pins that a request leaves. -/
def pinsLeft (d : HostDevice) : Request → List Nat
  | pin n => n :: d.pins
  | unpin n => d.pins.erase n
  | release t force =>
    if (d.release t force).1.isOk then d.pins.filter (· != t.serial) else d.pins
  | _ => d.pins

/-- The tensors whose release a request leaves to be done. -/
def deferredLeft (d : HostDevice) : Request → List HostTensor
  | unpin n =>
    if d.pinCount n = 1 then d.deferred.filter (·.serial != n) else d.deferred
  | release t force =>
    if t.serial ∈ d.outstanding ∧ (d.release t force).1.isOk = false then d.deferred ++ [t]
    else d.deferred
  | _ => d.deferred

lemma pins_serve (d : HostDevice) (request : Request) :
    (request.serve d).pins = request.pinsLeft d := by
  cases request with
  | failNext call => rfl
  | pin n => rfl
  | unpin n =>
    rcases unpin_outcome d n with ⟨-, heq⟩ | ⟨t, -, -, -, -, heq⟩ <;>
      simp only [serve, pinsLeft, heq]
  | allocate type location data? => exact (sameDuties_allocate rfl).pins
  | release t force =>
    rcases release_outcome d t force with
      ⟨-, hcall⟩ | ⟨-, ⟨-, hcall⟩ | ⟨-, -, -, hcall⟩ | ⟨-, -, hcall⟩⟩ <;>
      simp only [serve, pinsLeft, hcall] <;> rfl
  | transfer destination t => exact (sameDuties_transfer rfl).pins
  | compute kernel operands => exact (sameDuties_compute rfl).pins

lemma deferred_serve (d : HostDevice) (request : Request) :
    (request.serve d).deferred = request.deferredLeft d := by
  cases request with
  | failNext call => rfl
  | pin n => rfl
  | unpin n =>
    rcases unpin_outcome d n with ⟨hnone, heq⟩ | ⟨t, -, -, hin, hout, heq⟩ <;>
      simp only [serve, deferredLeft, heq]
    · split
      · next hlast =>
        obtain ⟨hin, hout⟩ := last_pin_iff.mpr hlast
        rw [eq_comm, List.filter_eq_self]
        simpa using hnone hin hout
      · rfl
    · rw [if_pos (last_pin_iff.mp ⟨hin, hout⟩)]
  | allocate type location data? => exact (sameDuties_allocate rfl).deferred
  | release t force =>
    rcases release_outcome d t force with
      ⟨hdead, hcall⟩ | ⟨hlive, ⟨-, hcall⟩ | ⟨-, -, -, hcall⟩ | ⟨-, -, hcall⟩⟩ <;>
      simp only [serve, deferredLeft, hcall]
    · rw [if_neg fun h => hdead h.1]
    · rw [if_pos ⟨hlive, rfl⟩]
    · rw [if_pos ⟨hlive, rfl⟩]
    · rw [if_neg fun h => nomatch h.2]
  | transfer destination t => exact (sameDuties_transfer rfl).deferred
  | compute kernel operands => exact (sameDuties_compute rfl).deferred

end Request

def deferredSerials (d : HostDevice) : List Nat := d.deferred.map (·.serial)

namespace Course

variable {turns : List Turn} {d : HostDevice} {tensors : List HostTensor}

/-- Held handles are outstanding, and their release is not deferred. -/
lemma held_serials (h : Course budget maxAllocation turns d tensors) {t : HostTensor}
    (ht : t ∈ tensors) :
    t.serial ∈ d.outstanding ∧ t.serial < d.nextSerial ∧ t.serial ∉ d.deferredSerials ∧
      t.serial ∉ d.outstanding.erase t.serial := by
  have haccounts := h.history.accounts
  have hmem : t.serial ∈ tensors.map (·.serial) := List.mem_map_of_mem ht
  have hdistinct := haccounts.books.distinct
  rw [List.map_append, List.nodup_append] at hdistinct
  obtain ⟨htensors, -, hapart⟩ := hdistinct
  have hnodup : d.outstanding.Nodup := haccounts.outstanding.nodup_iff.mpr htensors
  refine ⟨haccounts.outstanding.mem_iff.mpr hmem,
    haccounts.books.issued t (List.mem_append_left _ ht),
    fun hdeferred => hapart _ hmem _ hdeferred rfl, ?_⟩
  exact hnodup.not_mem_erase

lemma live (h : Course budget maxAllocation turns d tensors) {request : Request}
    (howned : request.Owned tensors) (t : HostTensor) (force : Bool)
    (hrequest : request = .release t force) : t.serial ∈ d.outstanding := by
  subst hrequest
  exact (h.held_serials howned).1

end Course

end HostDevice

end TensorMachine
