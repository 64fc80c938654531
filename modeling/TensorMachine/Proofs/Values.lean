import TensorMachine.Proofs.Bindings
import TensorMachine.Proofs.HostMemory
import TensorMachine.Proofs.Runs
import Mathlib.Logic.Function.Basic

/-!
# The values that a program computes

A program is evaluated without a device: an environment gives the type and the contents of every
live identifier, and the side on which a tensor lives plays no part. A run on a host device that
completes has computed these values, whatever the device had done before and however often the
tensors have changed sides.
-/

namespace TensorMachine

/-- What a tensor holds, on whichever side. -/
structure Value where
  type : TensorType
  bytes : Bytes
  deriving DecidableEq

def HostTensor.value (t : HostTensor) : Value := ⟨t.type, t.bytes⟩

/-- The values of the live identifiers. -/
abbrev Environment := TensorId → Option Value

/-- The values of supplied handles. -/
def Environment.ofInputs (inputs : List (TensorId × HostTensor)) : Environment :=
  fun id => (inputs.find? (·.1 == id)).map (·.2.value)

/-- The environment after an instruction, unless it allocates a type without a size or computes with
operands that are not there or too short. -/
def Instruction.evaluate (env : Environment) : Instruction → Option Environment
  | .allocate output type _ =>
    type.byteSize?.map fun size =>
      Function.update env output (some ⟨type, List.replicate size 0⟩)
  | .transfer _ _ .inPlace => some env
  | .transfer _ input (.renamed output) =>
    some (Function.update (Function.update env input none) output (env input))
  | .deallocate input _ => some (Function.update env input none)
  | .compute kernel inputs output => do
    let operands ← inputs.mapM env
    let first ← operands.head?
    let bytes ← kernel.run? (operands.map (·.bytes))
    some (Function.update env output (some ⟨first.type, bytes⟩))

def Program.evaluate (instructions : List Instruction) (env : Environment) : Option Environment :=
  instructions.foldlM (fun env i => i.evaluate env) env

/-!
### Handles of host devices
-/

/-- The handles that host devices make, and what becomes of them in transfers. -/
inductive HostTensor.Made : HostTensor → Prop
  | allocated {d d' : HostDevice} {type : TensorType} {location : Residence} {data? : Option Bytes}
    {t : HostTensor} (h : d.allocate type location data? = (.ok t, d')) : Made t
  | computed {d d' : HostDevice} {kernel : Kernel} {operands : List HostTensor} {t : HostTensor}
    (hoperands : ∀ x ∈ operands, Made x) (h : d.compute kernel operands = (.ok t, d')) : Made t
  | transferred {t : HostTensor} (h : Made t) (d : HostDevice) (destination : Residence) :
    Made (d.transfer destination t).2.1

namespace HostDevice

variable {d d' : HostDevice} {t : HostTensor}

lemma value_of_allocate {type : TensorType} {location : Residence} {data? : Option Bytes}
    (h : d.allocate type location data? = (.ok t, d')) :
    t.Filled ∧ t.value = ⟨type, data?.getD (List.replicate t.bytes.length 0)⟩ := by
  rcases d.allocate_outcome type location data? with
    ⟨e, _, -, hcall⟩ | ⟨bytes, memory, -, hprepare, hcall⟩
  · cases h.symm.trans hcall
  · cases h.symm.trans hcall
    obtain ⟨hsize, hbytes, -, -⟩ := prepare_eq_ok hprepare
    exact ⟨hsize, congrArg (Value.mk type) hbytes⟩

lemma value_of_compute {kernel : Kernel} {operands : List HostTensor}
    (hfilled : ∀ x ∈ operands, x.Filled) (h : d.compute kernel operands = (.ok t, d')) :
    t.Filled ∧ kernel.resultType (operands.map (·.type)) = .ok t.type ∧
      kernel.run? (operands.map (·.bytes)) = some t.bytes := by
  rcases d.compute_outcome kernel operands with
    ⟨e, _, -, hcall⟩ | ⟨type, memory, -, hprepare, hcall⟩
  · cases h.symm.trans hcall
  · obtain ⟨bytes, hrun, hsize, -, -⟩ := run?_of_prepareCompute hprepare hfilled
    rw [hrun] at hcall
    cases h.symm.trans hcall
    exact ⟨hsize, (prepareCompute_eq_ok hprepare).2.1, hrun⟩

/-- A transfer keeps the value, be it granted or not. -/
lemma value_transfer (d : HostDevice) (destination : Residence) (t : HostTensor) :
    (d.transfer destination t).2.1.value = t.value := by
  rcases d.transfer_outcome destination t with ⟨e, _, -, hcall⟩ | ⟨memory, -, -, hcall⟩
  · rw [hcall]
  · rw [hcall]
    rfl

lemma value_of_transfer {destination : Residence} {x : HostTensor} {answer : Except DeviceError Unit}
    (h : d.transfer destination t = (answer, x, d')) : x.value = t.value := by
  have hvalue := d.value_transfer destination t
  rwa [h] at hvalue

end HostDevice

lemma HostTensor.Filled.of_value {t x : HostTensor} (h : t.Filled) (hvalue : x.value = t.value) :
    x.Filled := by
  obtain ⟨htype, hbytes⟩ := Value.mk.inj hvalue
  unfold Filled
  rw [htype, hbytes]
  exact h

/-- Whatever a host device makes holds as many bytes as its type says. -/
lemma HostTensor.Made.filled {t : HostTensor} (h : t.Made) : t.Filled := by
  induction h with
  | allocated h => exact (HostDevice.value_of_allocate h).1
  | computed _ h ih => exact (HostDevice.value_of_compute ih h).1
  | transferred _ d destination ih => exact ih.of_value (d.value_transfer destination _)

/-- The outstanding tensors of a host device that is given its own handles only. -/
lemma HostDevice.History.made {budget : UInt64} {maxAllocation : Nat} {d : HostDevice}
    {tensors : List HostTensor} (h : History budget maxAllocation d tensors) :
    ∀ t ∈ tensors, t.Made := by
  induction h with
  | new => exact nofun
  | failNext _ _ ih | pin _ _ ih | unpin _ _ ih => exact ih
  | @allocate d tensors _ type location data? ih =>
    rcases hcall : d.allocate type location data? with ⟨_ | x, d'⟩
    · exact ih
    · exact List.forall_mem_cons.mpr ⟨.allocated hcall, ih⟩
  | release _ hperm _ ih => exact fun t ht => ih t (hperm.symm.subset (List.mem_cons_of_mem _ ht))
  | @transfer d t _ _ _ hperm destination ih =>
    have hall := fun x hx => ih x (hperm.symm.subset hx)
    obtain ⟨ht, hothers⟩ := List.forall_mem_cons.mp hall
    exact List.forall_mem_cons.mpr ⟨ht.transferred d destination, hothers⟩
  | @compute d tensors _ kernel operands hoperands ih =>
    rcases hcall : d.compute kernel operands with ⟨_ | x, d'⟩
    · exact ih
    · exact List.forall_mem_cons.mpr
        ⟨.computed (fun t ht => ih t (hoperands t ht)) hcall, ih⟩

/-!
### Values in a pool
-/

namespace Pool

variable {p : Pool HostTensor} {id : TensorId} {e : Entry HostTensor}

/-- The values of the tensors in a pool. -/
def values (p : Pool HostTensor) : Environment := fun id => (p.find? id).map (·.handle.value)

lemma values_ofInputs (inputs : List (TensorId × HostTensor)) :
    (ofInputs inputs).values = Environment.ofInputs inputs := by
  funext id
  rw [values, find?_ofInputs, Option.map_map]
  rfl

lemma values_introduce (hfresh : p.find? id = none) (t : HostTensor) (side : Residence) :
    (p.introduce id t side).values = Function.update p.values id (some t.value) := by
  funext x
  rw [values, find?_introduce]
  by_cases hx : id = x
  · subst hx
    simp [hfresh]
  · rw [Function.update_of_ne (Ne.symm hx)]
    simp [hx, values]

lemma values_retire (p : Pool HostTensor) (id : TensorId) (fate : Fate) :
    (p.retire id fate).values = Function.update p.values id none := by
  funext x
  rw [values, find?_retire]
  by_cases hx : id = x
  · subst hx
    simp
  · rw [Function.update_of_ne (Ne.symm hx), if_neg hx]
    rfl

lemma values_rename {output : TensorId} (hfresh : p.find? output = none) (id : TensorId)
    (t : HostTensor) (side : Residence) :
    ((p.retire id (.consumed output)).introduce output t side).values =
      Function.update (Function.update p.values id none) output (some t.value) := by
  have hgone : (p.retire id (.consumed output)).find? output = none := by
    rw [find?_retire, hfresh, ite_self]
  rw [values_introduce hgone, values_retire]

lemma values_of_retire {fate : Fate} {x : TensorId} {v : Value}
    (h : (p.retire id fate).values x = some v) : p.values x = some v := by
  rw [values_retire] at h
  by_cases hx : x = id
  · subst hx
    simp at h
  · rwa [Function.update_of_ne hx] at h

lemma values_place (hfind : p.find? e.id = some e) {t : HostTensor}
    (hvalue : t.value = e.handle.value) (side : Residence) :
    (p.place e.id t side).values = p.values := by
  funext x
  rw [values, values, find?_place]
  by_cases hx : e.id = x
  · subst hx
    simp [hfind, hvalue]
  · rw [if_neg hx]

lemma values_of_find? (h : p.find? id = some e) : p.values id = some e.handle.value := by
  rw [values, h, Option.map_some]

lemma mapM_values {entries : List (Entry HostTensor)}
    (h : ∀ e ∈ entries, p.find? e.id = some e ∧ e.residence = .device) :
    (entries.map (·.id)).mapM p.values = some (entries.map (·.handle.value)) := by
  induction entries with
  | nil => rfl
  | cons e entries ih =>
    obtain ⟨⟨hfind, -⟩, hrest⟩ := List.forall_mem_cons.mp h
    rw [List.map_cons, List.mapM_cons, values_of_find? hfind, ih hrest]
    rfl

lemma filled_operands (hfilled : ∀ e ∈ p.live, e.handle.Filled)
    {entries : List (Entry HostTensor)}
    (hentries : ∀ e ∈ entries, p.find? e.id = some e ∧ e.residence = .device) :
    ∀ t ∈ entries.map (·.handle), t.Filled := by
  intro t ht
  obtain ⟨e, he, rfl⟩ := List.mem_map.mp ht
  exact hfilled e (mem_of_find? (hentries e he).1)

lemma evaluate_compute {entries : List (Entry HostTensor)} {kernel : Kernel} {t : HostTensor}
    (hentries : ∀ e ∈ entries, p.find? e.id = some e ∧ e.residence = .device)
    (htype : kernel.resultType ((entries.map (·.handle)).map (·.type)) = .ok t.type)
    (hrun : kernel.run? ((entries.map (·.handle)).map (·.bytes)) = some t.bytes)
    (output : TensorId) :
    (Instruction.compute kernel (entries.map (·.id)) output).evaluate p.values =
      some (Function.update p.values output (some t.value)) := by
  obtain ⟨hcount, hsame, -⟩ := Kernel.resultType_eq_ok_iff.mp htype
  have hbytes : (entries.map (·.handle.value)).map (·.bytes) =
      (entries.map (·.handle)).map (·.bytes) := by
    simp [HostTensor.value, Function.comp_def]
  rw [Instruction.evaluate, mapM_values hentries]
  cases entries with
  | nil => exact absurd hcount.symm (Nat.ne_of_gt kernel.arity_pos)
  | cons first others =>
    have hfirst : first.handle.value.type = t.type := hsame _ (by simp [HostTensor.value])
    rw [Option.bind_eq_bind, Option.bind_some, hbytes, hrun, List.map_cons, List.head?_cons]
    simp only [Option.bind_eq_bind, Option.bind_some, hfirst]
    rfl

/-- A handle that is taken out has the value of its identifier. -/
lemma values_of_mem_takeOutputs {outputs : List TensorId} {output : TensorId × HostTensor}
    (h : output ∈ (takeOutputs outputs p).1) : p.values output.1 = some output.2.value := by
  induction outputs generalizing p with
  | nil => cases h
  | cons id outputs ih =>
    unfold takeOutputs at h
    cases hremove : p.remove id with
    | error e =>
      rw [hremove] at h
      exact ih h
    | ok removed =>
      obtain ⟨t, q⟩ := removed
      obtain ⟨e, hfind, rfl, rfl, rfl⟩ := remove_eq_ok hremove
      rw [hremove] at h
      rcases List.mem_cons.mp h with rfl | h
      · exact values_of_find? hfind
      · exact values_of_retire (ih h)

end Pool

lemma Progress.values_of_mem_handOver {progress : Progress HostDevice HostTensor} {cfg : RunConfig}
    {outputs : List TensorId} {output : TensorId × HostTensor}
    (h : output ∈ (progress.handOver cfg outputs).1) :
    progress.machine.pool.values output.1 = some output.2.value := by
  unfold handOver at h
  split at h
  · split at h
    · exact Pool.values_of_mem_takeOutputs h
    · cases h
  · cases h

/-!
### Steps
-/

namespace Machine

variable {m m' : Machine HostDevice HostTensor} {i : Instruction}

lemma Passes.filled (h : m.Passes HostDevice.provider i m')
    (hfilled : ∀ e ∈ m.pool.live, e.handle.Filled) : ∀ e ∈ m'.pool.live, e.handle.Filled := by
  intro e he
  cases h with
  | @allocate output type residence t d hfresh hcall =>
    rcases Pool.mem_live_introduce.mp he with he | rfl
    · exact hfilled e he
    · exact (HostDevice.value_of_allocate hcall).1
  | @transfer destination entry target t d hfind hside hfresh hcall =>
    have hentry : entry.handle.Filled := hfilled entry (Pool.mem_of_find? hfind)
    have ht : t.Filled := hentry.of_value (HostDevice.value_of_transfer hcall)
    obtain ⟨x, hx⟩ := Action.mem_live_move m.pool destination entry.id t target
    rcases hx e he with rfl | ⟨he, -⟩
    · exact ht
    · exact hfilled e he
  | deallocate => exact hfilled e (Pool.mem_live_retire.mp he).1
  | @compute kernel entries output t d harity hentries hfresh hcall =>
    rcases Pool.mem_live_introduce.mp he with he | rfl
    · exact hfilled e he
    · exact (HostDevice.value_of_compute (Pool.filled_operands hfilled hentries) hcall).1

/-- A step that goes through is evaluated to the values that it leaves in the pool. -/
lemma Passes.evaluate (h : m.Passes HostDevice.provider i m')
    (hfilled : ∀ e ∈ m.pool.live, e.handle.Filled) :
    i.evaluate m.pool.values = some m'.pool.values := by
  cases h with
  | @allocate output type residence t d hfresh hcall =>
    have hcall : m.device.allocate type residence none = (.ok t, d) := hcall
    obtain ⟨hsize, hvalue⟩ := HostDevice.value_of_allocate hcall
    rw [Pool.values_introduce (Pool.find?_of_fresh hfresh), hvalue]
    have htype : t.type = type := congrArg Value.type hvalue
    rw [HostTensor.Filled, htype] at hsize
    rw [Instruction.evaluate, hsize]
    rfl
  | @transfer destination entry target t d hfind hside hfresh hcall =>
    have hvalue : t.value = entry.handle.value := HostDevice.value_of_transfer hcall
    cases target with
    | inPlace =>
      rw [Action.move, Pool.values_place hfind hvalue]
      rfl
    | renamed output =>
      have hnew := Pool.find?_of_fresh (hfresh output (by simp [Target.ids]))
      rw [Action.move, Pool.values_rename hnew, hvalue, Instruction.evaluate,
        Pool.values_of_find? hfind]
  | deallocate =>
    rw [Pool.values_retire]
    rfl
  | @compute kernel entries output t d harity hentries hfresh hcall =>
    obtain ⟨-, htype, hrun⟩ :=
      HostDevice.value_of_compute (Pool.filled_operands hfilled hentries) hcall
    rw [Pool.values_introduce (Pool.find?_of_fresh hfresh)]
    exact Pool.evaluate_compute hentries htype hrun output

/-- Instructions that all go through are evaluated. -/
lemma Runs.evaluate {instructions : List Instruction}
    (h : Runs HostDevice.provider m instructions m')
    (hfilled : ∀ e ∈ m.pool.live, e.handle.Filled) :
    Program.evaluate instructions m.pool.values = some m'.pool.values := by
  induction h with
  | nil => rfl
  | cons h _ ih =>
    rw [Program.evaluate, List.foldlM_cons, h.evaluate hfilled]
    exact ih (h.filled hfilled)

/-- No step changes the value of a tensor that it does not introduce. -/
lemma values_of_step {id : TensorId} {v : Value}
    (h : (m.step HostDevice.provider i).2.pool.values id = some v) (hid : id ∉ i.outputs) :
    m.pool.values id = some v := by
  rcases step_cases HostDevice.provider i m with
    ⟨m', hstep, hpasses⟩ | ⟨e, m', hstep, hstops⟩ <;> rw [hstep] at h
  · cases hpasses with
    | allocate hfresh =>
      rwa [Pool.values_introduce (Pool.find?_of_fresh hfresh),
        Function.update_of_ne (by simpa [Instruction.outputs] using hid)] at h
    | @transfer destination entry target t d hfind hside hfresh hcall =>
      have hvalue : t.value = entry.handle.value := HostDevice.value_of_transfer hcall
      cases target with
      | inPlace => rwa [Action.move, Pool.values_place hfind hvalue] at h
      | renamed output =>
        have hnew := Pool.find?_of_fresh (hfresh output (by simp [Target.ids]))
        have hne : id ≠ output := by simpa [Instruction.outputs, Target.ids] using hid
        rw [Action.move, Pool.values_rename hnew, Function.update_of_ne hne,
          ← Pool.values_retire m.pool entry.id .freed] at h
        exact Pool.values_of_retire h
    | deallocate => exact Pool.values_of_retire h
    | compute _ _ hfresh =>
      rwa [Pool.values_introduce (Pool.find?_of_fresh hfresh),
        Function.update_of_ne (by simpa [Instruction.outputs] using hid)] at h
  · cases hstops with
    | plan | allocate | compute => exact h
    | transfer hfind _ _ hcall =>
      rwa [Pool.values_place hfind (HostDevice.value_of_transfer hcall)] at h
    | deallocate => exact Pool.values_of_retire h

end Machine

namespace Program

/-- The handles that a run hands back have the values that the program computes of those supplied.
No transfer changes a value, and no instruction that of a tensor which it does not introduce. -/
theorem run_computes_values (cfg : RunConfig) (p : Program)
    {inputs : List (TensorId × HostTensor)} (d : HostDevice)
    (hmade : ∀ input ∈ inputs, input.2.Made) :
    ((p.run HostDevice.provider cfg inputs d).1.status = .completed →
      ∃ env, evaluate p.instructions (.ofInputs inputs) = some env ∧
        ∀ output ∈ (p.run HostDevice.provider cfg inputs d).1.outputs,
          env output.1 = some output.2.value) ∧
    (∀ (d : HostDevice) (destination : Residence) (t : HostTensor),
      (d.transfer destination t).2.1.value = t.value) ∧
    ∀ (m : Machine HostDevice HostTensor) (i : Instruction) (id : TensorId) (v : Value),
      (m.step HostDevice.provider i).2.pool.values id = some v → id ∉ i.outputs →
        m.pool.values id = some v := by
  refine ⟨?_, HostDevice.value_transfer, fun m i id v => Machine.values_of_step⟩
  unfold run
  cases haccept : p.accept cfg (inputs.map Prod.fst) with
  | error fault => exact nofun
  | ok _ =>
    simp only [Pool.bindInputs_of_nodup inputs (suppliedBy_of_accept haccept).1, execute]
    rcases Machine.advance_cases HostDevice.provider p.instructions 0 ⟨.ofInputs inputs, d⟩ with
      ⟨m, hruns, hadvance⟩ | ⟨done, i, rest, before, e, m, -, -, -, hadvance⟩
    · rw [hadvance]
      intro _
      have hfilled : ∀ e ∈ (Pool.ofInputs inputs).live, e.handle.Filled := by
        intro e he
        obtain ⟨input, hinput, rfl⟩ := List.mem_map.mp he
        exact (hmade input hinput).filled
      refine ⟨m.pool.values, ?_, fun output houtput => Progress.values_of_mem_handOver houtput⟩
      rw [← Pool.values_ofInputs]
      exact hruns.evaluate hfilled
    · rw [hadvance]
      exact nofun

/-- A tensor and its rectified copy, which change sides and identifiers on their way. -/
theorem run_computes_values_relu :
    let p : Program := ⟨[⟨1, ⟨.f32, [2]⟩⟩], [4, 2],
      [.transfer .device 1 (.renamed 2), .compute .relu [2] 3, .transfer .host 2 .inPlace,
        .transfer .host 3 (.renamed 4)]⟩
    let t : HostTensor := ⟨⟨1, ⟨.f32, [2]⟩, .host⟩, [0, 0, 128, 63, 0, 0, 128, 191]⟩
    let d := ((HostDevice.new 64 64).hostTensor t.type t.bytes).2
    let report := (p.run HostDevice.provider {} [(1, t)] d).1
    (∀ input ∈ [((1 : TensorId), t)], input.2.Made) ∧ report.status = .completed ∧
      (report.outputs.map fun output => (output.1, output.2.bytes)) =
        [(4, [0, 0, 128, 63, 0, 0, 0, 0]), (2, [0, 0, 128, 63, 0, 0, 128, 191])] ∧
      ∃ env, evaluate p.instructions (.ofInputs [(1, t)]) = some env ∧
        ∀ output ∈ report.outputs, env output.1 = some output.2.value := by
  intro p t d report
  have hnew : HostDevice.History 64 64 (.new 64 64) [] := .new
  have hd : HostDevice.History 64 64 d [t] := hnew.allocate t.type .host (some t.bytes)
  have hmade : ∀ input ∈ [((1 : TensorId), t)], input.2.Made := by
    intro input hinput
    obtain rfl := List.mem_singleton.mp hinput
    exact hd.made t List.mem_cons_self
  have hstatus : report.status = .completed := by decide
  refine ⟨hmade, hstatus, by decide, ?_⟩
  exact (run_computes_values {} p d hmade).1 hstatus

end Program

end TensorMachine
