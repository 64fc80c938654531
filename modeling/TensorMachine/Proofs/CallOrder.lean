import TensorMachine.Proofs.Custody

/-!
# The order of calls

The calls of a run can be told without the device, once its answers are known. Each instruction
that is executed makes the call that it names, on the handles that are held under the identifiers
it reads, and the answer says what is held behind it. The instruction that fails makes a call only
if it is the device that refuses it. Then all that is still held and not handed back is released,
in the order of introduction.
-/

namespace TensorMachine

variable {σ η : Type}

/-!
### Calls of instructions
-/

/-- The call of an instruction on the handles that are held under their identifiers, the answer of
a device that grants it, and what is held behind it. -/
inductive Instruction.CallGranted (held : List (TensorId × η)) :
    Instruction → Exchange η → List (TensorId × η) → Prop
  | allocate {output : TensorId} {type : TensorType} {residence : Residence} {handle : η}
    (hnew : output ∉ held.map Prod.fst) :
    CallGranted held (.allocate output type residence) (.allocate type residence (.ok handle))
      (held ++ [(output, handle)])
  | move {destination : Residence} {input : TensorId} {handle left : η}
    (h : (input, handle) ∈ held) :
    CallGranted held (.transfer destination input .inPlace)
      (.transfer destination handle (.ok ()) left)
      (held.map fun t => if t.1 = input then (input, left) else t)
  | rename {destination : Residence} {input output : TensorId} {handle left : η}
    (h : (input, handle) ∈ held) (hnew : output ∉ held.map Prod.fst) :
    CallGranted held (.transfer destination input (.renamed output))
      (.transfer destination handle (.ok ()) left)
      (held.filter (·.1 != input) ++ [(output, left)])
  | deallocate {input : TensorId} {force : Bool} {handle : η} (h : (input, handle) ∈ held) :
    CallGranted held (.deallocate input force) (.release handle force (.ok ()))
      (held.filter (·.1 != input))
  | compute {kernel : Kernel} {inputs : List TensorId} {operands : List η} {output : TensorId}
    {handle : η} (h : List.Forall₂ (fun input operand => (input, operand) ∈ held) inputs operands)
    (hnew : output ∉ held.map Prod.fst) :
    CallGranted held (.compute kernel inputs output) (.compute kernel operands (.ok handle))
      (held ++ [(output, handle)])

/-- The call of an instruction that the device refuses, the cause, and what is held behind it. A
refused transfer leaves a handle, and a refused release takes its handle along. -/
inductive Instruction.CallRefused (held : List (TensorId × η)) :
    Instruction → Exchange η → DeviceError → List (TensorId × η) → Prop
  | allocate {output : TensorId} {type : TensorType} {residence : Residence} {e : DeviceError} :
    CallRefused held (.allocate output type residence) (.allocate type residence (.error e)) e held
  | transfer {destination : Residence} {input : TensorId} {target : Target} {handle left : η}
    {e : DeviceError} (h : (input, handle) ∈ held) :
    CallRefused held (.transfer destination input target)
      (.transfer destination handle (.error e) left) e
      (held.map fun t => if t.1 = input then (input, left) else t)
  | deallocate {input : TensorId} {force : Bool} {handle : η} {e : DeviceError}
    (h : (input, handle) ∈ held) :
    CallRefused held (.deallocate input force) (.release handle force (.error e)) e
      (held.filter (·.1 != input))
  | compute {kernel : Kernel} {inputs : List TensorId} {operands : List η} {output : TensorId}
    {e : DeviceError}
    (h : List.Forall₂ (fun input operand => (input, operand) ∈ held) inputs operands) :
    CallRefused held (.compute kernel inputs output) (.compute kernel operands (.error e)) e held

/-- One granted call for each of some instructions, in order. -/
inductive CallsGranted : List (TensorId × η) → List Instruction → List (Exchange η) →
    List (TensorId × η) → Prop
  | nil {held : List (TensorId × η)} : CallsGranted held [] [] held
  | cons {held held' last : List (TensorId × η)} {i : Instruction} {rest : List Instruction}
    {call : Exchange η} {calls : List (Exchange η)} (h : i.CallGranted held call held')
    (hrest : CallsGranted held' rest calls last) :
    CallsGranted held (i :: rest) (call :: calls) last

/-- The calls behind those of the executed instructions, given how the run ended: one that was
refused if the device refused the next instruction, and otherwise none. -/
inductive CallsAtEnd (held : List (TensorId × η)) (instructions : List Instruction)
    (executed : Nat) : Status → List (Exchange η) → List (TensorId × η) → Prop
  | completed (hall : executed = instructions.length) :
    CallsAtEnd held instructions executed .completed [] held
  | missing (hall : executed = instructions.length) (id : TensorId) :
    CallsAtEnd held instructions executed (.failed ⟨none, .protocol (.missingOutput id)⟩) [] held
  | unplanned {e : ExecutionError} (hlt : executed < instructions.length)
    (hkind : e.kind ≠ .device) :
    CallsAtEnd held instructions executed (.failed ⟨some executed, e⟩) [] held
  | refused {i : Instruction} {call : Exchange η} {cause : DeviceError}
    {left : List (TensorId × η)} (hnext : instructions[executed]? = some i)
    (h : i.CallRefused held call cause left) :
    CallsAtEnd held instructions executed (.failed ⟨some executed, .device i.opcode cause⟩) [call]
      left

/-- One release for each of some handles, in order, whatever the device answers. -/
def Releases (force : Bool) (handles : List (TensorId × η)) (calls : List (Exchange η)) : Prop :=
  List.Forall₂ (fun t call => ∃ answer, call = Exchange.release t.2 force answer) handles calls

/-!
### Steps and their calls
-/

namespace Pool

variable {p : Pool η}

lemma not_mem_holdings_of_fresh {id : TensorId} (hfresh : p.isKnown id = false) :
    id ∉ p.holdings.map Prod.fst := by
  rw [map_fst_holdings]
  exact (p.find?_eq_none_iff id).mp (find?_of_fresh hfresh)

lemma operands_held {entries : List (Entry η)}
    (h : ∀ e ∈ entries, p.find? e.id = some e ∧ e.residence = .device) :
    List.Forall₂ (fun input operand => (input, operand) ∈ p.holdings) (entries.map (·.id))
      (entries.map (·.handle)) := by
  rw [List.forall₂_map_left_iff, List.forall₂_map_right_iff, List.forall₂_same]
  exact fun e he => mem_holdings_of_find? (h e he).1

end Pool

namespace Machine

variable {P : Provider σ η} {m m' : Machine (σ × List (Exchange η)) η} {i : Instruction}

lemma Passes.call (h : m.Passes P.recorded i m') :
    ∃ call, m'.device.2 = m.device.2 ++ [call] ∧
      i.CallGranted m.pool.holdings call m'.pool.holdings := by
  cases h with
  | allocate hfresh hcall =>
    refine ⟨_, (Provider.allocate_of_recorded hcall).2, ?_⟩
    rw [Pool.holdings_introduce]
    exact .allocate (Pool.not_mem_holdings_of_fresh hfresh)
  | @transfer destination entry target handle s hfind _ hfresh hcall =>
    refine ⟨_, (Provider.transfer_of_recorded hcall).2, ?_⟩
    have hheld := Pool.mem_holdings_of_find? hfind
    cases target with
    | inPlace =>
      rw [Action.move, Pool.holdings_place]
      exact .move hheld
    | renamed output =>
      rw [Action.move, Pool.holdings_introduce, Pool.holdings_retire]
      exact .rename hheld (Pool.not_mem_holdings_of_fresh (hfresh output (by simp [Target.ids])))
  | deallocate hfind hcall =>
    refine ⟨_, (Provider.release_of_recorded hcall).2, ?_⟩
    rw [Pool.holdings_retire]
    exact .deallocate (Pool.mem_holdings_of_find? hfind)
  | compute _ hentries hfresh hcall =>
    refine ⟨_, (Provider.compute_of_recorded hcall).2, ?_⟩
    rw [Pool.holdings_introduce]
    exact .compute (Pool.operands_held hentries) (Pool.not_mem_holdings_of_fresh hfresh)

/-- A step that fails makes no call, or the one that its instruction names and the device
refuses. -/
lemma Stops.call {e : ExecutionError} (h : m.Stops P.recorded i e m') :
    (e.kind ≠ .device ∧ m' = m) ∨
      ∃ call cause, e = .device i.opcode cause ∧ m'.device.2 = m.device.2 ++ [call] ∧
        i.CallRefused m.pool.holdings call cause m'.pool.holdings := by
  cases h with
  | plan hplan => exact .inl ⟨Instruction.kind_of_plan hplan, rfl⟩
  | allocate hfresh hcall =>
    exact .inr ⟨_, _, rfl, (Provider.allocate_of_recorded hcall).2, .allocate⟩
  | transfer hfind _ _ hcall =>
    refine .inr ⟨_, _, rfl, (Provider.transfer_of_recorded hcall).2, ?_⟩
    rw [Pool.holdings_place]
    exact .transfer (Pool.mem_holdings_of_find? hfind)
  | deallocate hfind hcall =>
    refine .inr ⟨_, _, rfl, (Provider.release_of_recorded hcall).2, ?_⟩
    rw [Pool.holdings_retire]
    exact .deallocate (Pool.mem_holdings_of_find? hfind)
  | compute _ hentries _ hcall =>
    have hheld := Pool.operands_held hentries
    exact .inr ⟨_, _, rfl, (Provider.compute_of_recorded hcall).2, .compute hheld⟩

lemma Runs.calls {instructions : List Instruction} (h : Runs P.recorded m instructions m') :
    ∃ calls, m'.device.2 = m.device.2 ++ calls ∧
      CallsGranted m.pool.holdings instructions calls m'.pool.holdings := by
  induction h with
  | nil => exact ⟨[], (List.append_nil _).symm, .nil⟩
  | cons h _ ih =>
    obtain ⟨call, hcall, hgranted⟩ := h.call
    obtain ⟨calls, hcalls, hrest⟩ := ih
    refine ⟨call :: calls, ?_, .cons hgranted hrest⟩
    rw [hcalls, hcall, List.append_assoc]
    rfl

/-- However far a list of instructions comes, its calls are those of the executed instructions and
at most one more. -/
theorem calls_advance (P : Provider σ η) (instructions : List Instruction)
    (m : Machine (σ × List (Exchange η)) η) (outputs : List TensorId) :
    let progress := advance P.recorded instructions 0 m
    ∃ granted failing held, progress.machine.device.2 = m.device.2 ++ granted ++ failing ∧
      CallsGranted m.pool.holdings (instructions.take progress.executed) granted held ∧
      CallsAtEnd held instructions progress.executed (progress.status outputs) failing
        progress.machine.pool.holdings := by
  intro progress
  rcases advance_cases P.recorded instructions 0 m with
    ⟨m', hruns, hadvance⟩ | ⟨done, i, rest, m', e, m'', rfl, hruns, hstops, hadvance⟩
  · obtain ⟨calls, hcalls, hgranted⟩ := hruns.calls
    have hprogress : progress = ⟨instructions.length, none, m'⟩ := by
      rw [← Nat.zero_add instructions.length]
      exact hadvance
    rw [hprogress]
    refine ⟨calls, [], m'.pool.holdings, by simpa using hcalls, ?_, ?_⟩
    · rwa [List.take_length]
    · simp only [Progress.status]
      split
      · exact .missing rfl _
      · exact .completed rfl
  · obtain ⟨calls, hcalls, hgranted⟩ := hruns.calls
    have hprogress : progress = ⟨done.length, some e, m''⟩ := by
      rw [← Nat.zero_add done.length]
      exact hadvance
    rw [hprogress]
    have htake : (done ++ i :: rest).take done.length = done := List.take_left
    rcases hstops.call with ⟨hkind, rfl⟩ | ⟨call, cause, rfl, hcall, hrefused⟩
    · refine ⟨calls, [], m''.pool.holdings, by simpa using hcalls, htake.symm ▸ hgranted, ?_⟩
      exact .unplanned (by simp) hkind
    · refine ⟨calls, [call], m'.pool.holdings, by rw [hcall, hcalls], htake.symm ▸ hgranted, ?_⟩
      exact .refused (by simp) hrefused

end Machine

/-!
### Whole runs
-/

lemma releases_releaseAll (P : Provider σ η) (force : Bool) (handles : List (TensorId × η))
    (s : σ × List (Exchange η)) :
    ∃ calls, (releaseAll P.recorded force handles s).device.2 = s.2 ++ calls ∧
      Releases force handles calls := by
  induction handles generalizing s with
  | nil => exact ⟨[], (List.append_nil _).symm, .nil⟩
  | cons input handles ih =>
    obtain ⟨id, handle⟩ := input
    rcases hcall : P.recorded.release handle force s with ⟨answer, s'⟩
    obtain ⟨calls, hcalls, hrest⟩ := ih s'
    rw [(Provider.release_of_recorded hcall).2, List.append_assoc, List.singleton_append] at hcalls
    refine ⟨.release handle force answer :: calls, ?_, .cons ⟨answer, rfl⟩ hrest⟩
    rw [← hcalls, releaseAll, hcall]
    cases answer <;> rfl

namespace Program

/-- The order of the calls of a run. If it is rejected, all supplied handles are released. Otherwise
each executed instruction makes its call, the one that fails makes a call only if the device refuses
it, and what is live behind them and not handed back is released. -/
def CallsOrdered (cfg : RunConfig) (p : Program) (inputs : List (TensorId × η)) (report : Report η)
    (calls : List (Exchange η)) : Prop :=
  match p.accept cfg (inputs.map Prod.fst) with
  | .error _ => Releases cfg.forceTeardown inputs calls
  | .ok () =>
    ∃ granted failing teardown held last, calls = granted ++ failing ++ teardown ∧
      CallsGranted inputs (p.instructions.take report.executed) granted held ∧
      CallsAtEnd held p.instructions report.executed report.status failing last ∧
      last.map Prod.fst = report.survivingIds ∧
      (∀ output ∈ report.outputs, output ∈ last) ∧
      (∀ id, id ∈ report.outputs.map Prod.fst ↔
        id ∈ p.outputs ∧ report.status = .completed ∧ cfg.retainOutputs = true) ∧
      Releases cfg.forceTeardown (last.filter (·.1 ∉ report.outputs.map Prod.fst)) teardown

lemma calls_reject (P : Provider σ η) (cfg : RunConfig) (fault : Fault)
    (surviving : List (TensorId × State)) (inputs : List (TensorId × η)) (s : σ) :
    Releases cfg.forceTeardown inputs
      (reject P.recorded cfg fault surviving inputs (s, [])).2.2 := by
  obtain ⟨calls, hcalls, hreleases⟩ := releases_releaseAll P cfg.forceTeardown inputs (s, [])
  simp only [reject, hcalls]
  exact hreleases

lemma callsOrdered_run (P : Provider σ η) (cfg : RunConfig) (p : Program)
    (inputs : List (TensorId × η)) (s : σ) :
    p.CallsOrdered cfg inputs (p.run P.recorded cfg inputs (s, [])).1
      (p.run P.recorded cfg inputs (s, [])).2.2 := by
  unfold CallsOrdered run
  cases haccept : p.accept cfg (inputs.map Prod.fst) with
  | error fault => exact calls_reject P cfg fault [] inputs s
  | ok _ =>
    have hids := (suppliedBy_of_accept haccept).1
    simp only [Pool.bindInputs_of_nodup inputs hids, execute]
    have hheld : (Pool.ofInputs inputs).holdings = inputs := by
      simp [Pool.holdings, Pool.ofInputs, Function.comp_def]
    obtain ⟨granted, failing, held, hcalls, hgranted, hend⟩ :=
      Machine.calls_advance P p.instructions ⟨.ofInputs inputs, s, []⟩ p.outputs
    rw [hheld] at hgranted
    generalize Machine.advance P.recorded p.instructions 0 ⟨.ofInputs inputs, s, []⟩ = progress
      at hcalls hgranted hend ⊢
    obtain ⟨hback, houtputs, hrest⟩ := progress.holdings_handOver cfg p.outputs
    obtain ⟨teardown, hteardown, hreleases⟩ := releases_releaseAll P cfg.forceTeardown
      (progress.handOver cfg p.outputs).2.drain.1 progress.machine.device
    change Releases _ (progress.handOver cfg p.outputs).2.holdings _ at hreleases
    rw [hrest] at hreleases
    refine ⟨granted, failing, teardown, held, _, ?_, hgranted, hend, ?_, hback, houtputs,
      hreleases⟩
    · rw [hteardown, hcalls]
      rfl
    · rw [Pool.map_fst_holdings, Report.survivingIds, Pool.map_fst_snapshot]

/-- Every run makes its calls in the order of its program and halts at the first failure: one call
for each executed instruction, one for the instruction that the device refuses, none behind it, and
the releases at the end. -/
theorem run_callsOrdered (P : Provider σ η) (cfg : RunConfig) (inputs : List (TensorId × η))
    (s : σ) :
    (∀ p : Program,
      p.CallsOrdered cfg inputs (p.run P cfg inputs s).1 (p.calls P cfg inputs s)) ∧
    ∀ bytes : Bytes,
      match decode bytes with
      | .error _ => Releases cfg.forceTeardown inputs (callsBytes P cfg bytes inputs s)
      | .ok p => p.CallsOrdered cfg inputs (runBytes P cfg bytes inputs s).1
          (callsBytes P cfg bytes inputs s) := by
  have hrun : ∀ p : Program,
      p.CallsOrdered cfg inputs (p.run P cfg inputs s).1 (p.calls P cfg inputs s) := by
    intro p
    rw [p.run_recorded P cfg inputs s []]
    exact callsOrdered_run P cfg p inputs s
  refine ⟨hrun, fun bytes => ?_⟩
  unfold callsBytes runBytes
  cases decode bytes with
  | error e => exact calls_reject P cfg _ [] inputs s
  | ok p => exact hrun p

/-- The third instruction reads an identifier that nothing has introduced: it makes no call, nor
does the one behind it, and both tensors are released. -/
example :
    let t : TensorType := ⟨.u8, [2]⟩
    let p : Program := ⟨[], [], [.allocate 1 t .host, .allocate 2 t .device, .deallocate 3 false,
      .deallocate 1 false]⟩
    p.calls .symbolic {} [] () =
      [.allocate t .host (.ok t), .allocate t .device (.ok t), .release t true (.ok ()),
        .release t true (.ok ())] := by
  rfl

end Program

end TensorMachine
