import TensorMachine.Proofs.HostCalls
import TensorMachine.Proofs.Prediction
import Mathlib.Data.List.Nodup

/-!
# Verification and the host device

The symbolic device is the host device without its storage. A host machine mirrors a symbolic one
if their pools are alike along the types of the tensors and every live tensor is one that the host
device knows, at the side that the pool says. Then both devices check the same, and a run on the
host device can only be stopped earlier for lack of memory, by an armed failure or by a pin.
-/

namespace TensorMachine

/-- A host machine beside a symbolic one. -/
structure Machine.Mirrors (m : Machine HostDevice HostTensor) (q : Machine Unit TensorType) :
    Prop where
  alike : m.pool.Alike (·.type) q.pool
  outstanding_lt : ∀ n ∈ m.device.outstanding, n < m.device.nextSerial
  outstanding : ∀ e ∈ m.pool.live, e.handle.serial ∈ m.device.outstanding
  location : ∀ e ∈ m.pool.live, e.handle.location = e.residence
  addressable : ∀ e ∈ m.pool.live, e.handle.type.byteSize? ≠ none
  distinct : ∀ e ∈ m.pool.live, ∀ e' ∈ m.pool.live, e.handle.serial = e'.handle.serial → e.id = e'.id

namespace Machine

/-- A refusal by the host device that says nothing of the program. -/
def HostRefusal (e : ExecutionError) (_ : Except ExecutionError Unit) : Prop :=
  ∃ operation cause, e = .device operation cause ∧ cause.Transient

namespace Mirrors

variable {m : Machine HostDevice HostTensor} {q : Machine Unit TensorType}

lemma issued (h : Mirrors m q) (id : TensorId) {t : HostTensor} {d' : HostDevice}
    (hserial : t.serial = m.device.nextSerial) (hsize : t.type.byteSize? ≠ none)
    (hnext : d'.nextSerial = m.device.nextSerial + 1)
    (hout : d'.outstanding = m.device.nextSerial :: m.device.outstanding) :
    Mirrors ⟨m.pool.introduce id t t.location, d'⟩ ⟨q.pool.introduce id t.type t.location, ()⟩ := by
  have hnew : ∀ e ∈ m.pool.live, e.handle.serial ≠ t.serial := by
    intro e he heq
    have hlt := h.outstanding_lt _ (h.outstanding e he)
    rw [heq, hserial] at hlt
    exact Nat.lt_irrefl m.device.nextSerial hlt
  refine ⟨h.alike.introduce id t t.location, ?_, ?_, ?_, ?_, ?_⟩
  · exact HostDevice.outstanding_lt_of_issue h.outstanding_lt hnext hout
  · intro e he
    rw [hout]
    rcases Pool.mem_live_introduce.mp he with he | rfl
    · exact List.mem_cons_of_mem _ (h.outstanding e he)
    · exact hserial ▸ List.mem_cons_self
  · intro e he
    rcases Pool.mem_live_introduce.mp he with he | rfl
    · exact h.location e he
    · rfl
  · intro e he
    rcases Pool.mem_live_introduce.mp he with he | rfl
    · exact h.addressable e he
    · exact hsize
  · intro e he e' he' heq
    rcases Pool.mem_live_introduce.mp he with he | rfl <;>
      rcases Pool.mem_live_introduce.mp he' with he' | rfl
    · exact h.distinct e he e' he' heq
    · exact absurd heq (hnew e he)
    · exact absurd heq.symm (hnew e' he')
    · rfl

lemma released (h : Mirrors m q) {entry : Entry HostTensor} (hentry : entry ∈ m.pool.live)
    {d' : HostDevice} (hnext : d'.nextSerial = m.device.nextSerial)
    (hout : d'.outstanding = m.device.outstanding.erase entry.handle.serial) (fate : Fate) :
    Mirrors ⟨m.pool.retire entry.id fate, d'⟩ ⟨q.pool.retire entry.id fate, ()⟩ := by
  have hkept : ∀ e ∈ (m.pool.retire entry.id fate).live, e ∈ m.pool.live :=
    fun e he => (Pool.mem_live_retire.mp he).1
  refine ⟨h.alike.retire entry.id fate, ?_, ?_, ?_, ?_, ?_⟩
  · intro n hn
    simp only [hout, hnext] at hn ⊢
    exact h.outstanding_lt n (List.mem_of_mem_erase hn)
  · intro e he
    obtain ⟨hmem, hne⟩ := Pool.mem_live_retire.mp he
    have hserial : e.handle.serial ≠ entry.handle.serial :=
      fun heq => hne (h.distinct e hmem entry hentry heq)
    rw [hout, List.mem_erase_of_ne hserial]
    exact h.outstanding e hmem
  · exact fun e he => h.location e (hkept e he)
  · exact fun e he => h.addressable e (hkept e he)
  · exact fun e he e' he' => h.distinct e (hkept e he) e' (hkept e' he')

lemma moved (h : Mirrors m q) {entry : Entry HostTensor} (hentry : entry ∈ m.pool.live)
    {d' : HostDevice} (hsame : m.device.SameHandles d') (destination : Residence)
    (target : Target) :
    Mirrors ⟨Action.move m.pool destination entry.id { entry.handle with location := destination }
        target, d'⟩
      ⟨Action.move q.pool destination entry.id entry.handle.type target, ()⟩ := by
  obtain ⟨x, hx⟩ := Action.mem_live_move m.pool destination entry.id
    { entry.handle with location := destination } target
  have hother : ∀ e ∈ m.pool.live, e.id ≠ entry.id → e.handle.serial ≠ entry.handle.serial :=
    fun e he hne heq => hne (h.distinct e he entry hentry heq)
  refine ⟨Action.move_alike h.alike destination entry.id
    { entry.handle with location := destination } target, ?_, ?_, ?_, ?_, ?_⟩
  · simp only [hsame.outstanding, hsame.nextSerial]
    exact h.outstanding_lt
  · intro e he
    rw [hsame.outstanding]
    rcases hx e he with rfl | ⟨he, -⟩
    · exact h.outstanding entry hentry
    · exact h.outstanding e he
  · intro e he
    rcases hx e he with rfl | ⟨he, -⟩
    · rfl
    · exact h.location e he
  · intro e he
    rcases hx e he with rfl | ⟨he, -⟩
    · exact h.addressable entry hentry
    · exact h.addressable e he
  · intro e he e' he' heq
    rcases hx e he with rfl | ⟨he, hne⟩ <;> rcases hx e' he' with rfl | ⟨he', hne'⟩
    · rfl
    · exact absurd heq.symm (hother e' he' hne')
    · exact absurd heq (hother e he hne)
    · exact h.distinct e he e' he' heq

end Mirrors

section Actions

variable {m : Machine HostDevice HostTensor} {q : Machine Unit TensorType}

lemma allocate_follows_symbolic (h : Mirrors m q) (operation : Opcode) {output : TensorId}
    {type : TensorType} {residence : Residence} :
    StepFollows Mirrors HostRefusal
      ((Action.allocate output type residence).outcome HostDevice.provider operation m)
      ((Action.allocate output type residence).outcome .symbolic operation q) := by
  simp only [Action.outcome, Action.carryOut, HostDevice.provider, Provider.symbolic]
  rcases m.device.allocate_cases type residence none with
    ⟨e, d', hcall, -, hcause⟩ | ⟨t, d', hcall, hlabel, hsize, hnext, hout⟩
  · rw [hcall]
    rcases hcause rfl with htransient | hsize
    · exact .excused ⟨_, e, rfl, htransient⟩ _ _
    · rw [hsize]
      exact .failed _ _ _
  · obtain ⟨size, hbytes⟩ := Option.ne_none_iff_exists'.mp hsize
    have haddressable := TensorType.addressableSize_eq_ok_iff.mpr hbytes
    obtain ⟨⟨serial, _, _⟩, bytes⟩ := t
    cases hlabel
    rw [hcall, haddressable]
    exact .done (h.issued output rfl hsize hnext hout)

lemma transfer_follows_symbolic (h : Mirrors m q) (operation : Opcode) {destination : Residence}
    {entry : Entry HostTensor} {target : Target} (hentry : entry ∈ m.pool.live)
    (hside : entry.residence = destination.opposite) :
    StepFollows Mirrors HostRefusal
      ((Action.transfer destination entry target).outcome HostDevice.provider operation m)
      ((Action.transfer destination (entry.map (·.type)) target).outcome .symbolic operation q) := by
  simp only [Action.outcome, Action.carryOut, HostDevice.provider, Provider.symbolic]
  rcases m.device.transfer_cases destination entry.handle with
    ⟨e, d', hcall, -, hcause⟩ | ⟨d', hcall, hsame⟩
  · have hlocation : entry.handle.location = destination.opposite := by
      rw [h.location entry hentry, hside]
    have htransient := hcause (h.outstanding entry hentry) hlocation
    rw [hcall]
    exact .excused ⟨_, e, rfl, htransient⟩ _ _
  · rw [hcall]
    exact .done (h.moved hentry hsame destination target)

lemma release_follows_symbolic (h : Mirrors m q) (operation : Opcode) {entry : Entry HostTensor}
    {force : Bool} (hentry : entry ∈ m.pool.live) :
    StepFollows Mirrors HostRefusal
      ((Action.release entry force).outcome HostDevice.provider operation m)
      ((Action.release (entry.map (·.type)) force).outcome .symbolic operation q) := by
  simp only [Action.outcome, Action.carryOut, HostDevice.provider, Provider.symbolic]
  rcases m.device.release_cases entry.handle force with
    ⟨hgone, -⟩ | ⟨-, answer, d', hcall, hcause, hnext, hout⟩
  · exact absurd (h.outstanding entry hentry) hgone
  · rw [hcall]
    cases answer with
    | error e => exact .excused ⟨_, e, rfl, hcause e rfl⟩ _ _
    | ok _ => exact .done (h.released hentry hnext hout .freed)

lemma compute_follows_symbolic (h : Mirrors m q) (operation : Opcode) {kernel : Kernel}
    {operands : List HostTensor} {output : TensorId}
    (hlive : ∀ t ∈ operands, ∃ e ∈ m.pool.live, e.residence = .device ∧ e.handle = t) :
    StepFollows Mirrors HostRefusal
      ((Action.compute kernel operands output).outcome HostDevice.provider operation m)
      ((Action.compute kernel (operands.map (·.type)) output).outcome .symbolic operation q) := by
  have hoperands : ∀ t ∈ operands, t.serial ∈ m.device.outstanding ∧ t.location = .device := by
    intro t ht
    obtain ⟨e, he, hside, rfl⟩ := hlive t ht
    exact ⟨h.outstanding e he, by rw [h.location e he, hside]⟩
  have hsizes : ∀ t ∈ operands, t.type.byteSize? ≠ none := by
    intro t ht
    obtain ⟨e, he, -, rfl⟩ := hlive t ht
    exact h.addressable e he
  simp only [Action.outcome, Action.carryOut, HostDevice.provider, Provider.symbolic]
  rcases m.device.compute_cases kernel operands with
    ⟨e, d', hcall, -, hcause⟩ | ⟨t, d', hcall, hserial, htype, hside, hsize, hnext, hout⟩
  · rw [hcall]
    rcases hcause hoperands hsizes with htransient | htype
    · exact .excused ⟨_, e, rfl, htransient⟩ _ _
    · rw [htype]
      exact .failed _ _ _
  · rw [hcall, htype]
    exact .done (hside ▸ h.issued output hserial hsize hnext hout)

end Actions

/-- A step on the host device does what the step on the symbolic device does, or it is refused for
a cause that says nothing of the program. -/
theorem step_follows_symbolic (i : Instruction) (m : Machine HostDevice HostTensor)
    (q : Machine Unit TensorType) (h : Mirrors m q) :
    StepFollows Mirrors HostRefusal (m.step HostDevice.provider i) (q.step .symbolic i) := by
  apply step_follows_of_alike h.alike i
  intro operation action hlegal
  cases action with
  | allocate output type residence => exact allocate_follows_symbolic h operation
  | transfer destination entry target =>
    exact transfer_follows_symbolic h operation (Pool.mem_of_find? hlegal.1) hlegal.2.1
  | release entry force => exact release_follows_symbolic h operation (Pool.mem_of_find? hlegal)
  | compute kernel operands output => exact compute_follows_symbolic h operation hlegal.2

end Machine

namespace Program

/-- Handles of a host device are supplied for the declared inputs: each is live on the host side
and has the declared type. -/
structure HostSupply (p : Program) (d : HostDevice) (inputs : List (TensorId × HostTensor)) :
    Prop where
  bound : p.SuppliedBy (inputs.map Prod.fst)
  live : ∀ input ∈ inputs, input.2.serial ∈ d.outstanding
  location : ∀ input ∈ inputs, input.2.location = .host
  type : ∀ input ∈ inputs, ⟨input.1, input.2.type⟩ ∈ p.inputs

lemma mirrors_inputs {p : Program} {d : HostDevice} {inputs : List (TensorId × HostTensor)}
    (hdeclared : (p.inputs.map (·.id)).Nodup) (hsupply : p.HostSupply d inputs)
    (hledger : HostDevice.Ledger d (inputs.map Prod.snd)) :
    Machine.Mirrors ⟨.ofInputs inputs, d⟩ ⟨.ofInputs p.declared, ()⟩ := by
  have hlive : ∀ e ∈ (Pool.ofInputs inputs).live, ∃ input ∈ inputs,
      e = ⟨input.1, input.2, .host⟩ := by
    intro e he
    obtain ⟨input, hinput, rfl⟩ := List.mem_map.mp he
    exact ⟨input, hinput, rfl⟩
  refine ⟨?_, hledger.outstanding_lt, ?_, ?_, ?_, ?_⟩
  · apply Pool.alike_ofInputs
    · rwa [map_fst_declared]
    · exact fun input hinput => List.mem_map.mpr ⟨_, hsupply.type input hinput, rfl⟩
    · intro id hid
      rw [map_fst_declared] at hid
      exact (hsupply.bound.2 id).mpr hid
  · intro e he
    obtain ⟨input, hinput, rfl⟩ := hlive e he
    exact hsupply.live input hinput
  · intro e he
    obtain ⟨input, hinput, rfl⟩ := hlive e he
    exact hsupply.location input hinput
  · intro e he
    obtain ⟨input, hinput, rfl⟩ := hlive e he
    exact hledger.addressable input.2 (List.mem_map_of_mem hinput)
  · intro e he e' he' heq
    obtain ⟨input, hinput, rfl⟩ := hlive e he
    obtain ⟨input', hinput', rfl⟩ := hlive e' he'
    have hdistinct := hledger.distinct
    rw [List.map_map] at hdistinct
    have hsame := List.inj_on_of_nodup_map hdistinct hinput hinput' heq
    rw [hsame]

end Program

end TensorMachine
