import TensorMachine.Proofs.Bindings
import TensorMachine.Proofs.Runs

/-!
# What survives a run

The tensors that are live when a run stops are found without the device: the instructions that were
executed are replayed on a list of identifiers and states, in the order of introduction. Only a
release that the device refuses makes a difference, since its identifier is gone all the same.
-/

namespace TensorMachine

variable {σ η : Type}

/-- The live tensors after an instruction, given those before it. -/
def Instruction.replay : Instruction → List (TensorId × State) → List (TensorId × State)
  | .allocate output _ residence, live => live ++ [(output, .resident residence)]
  | .transfer destination input .inPlace, live =>
    live.map fun t => if t.1 = input then (input, .resident destination) else t
  | .transfer destination input (.renamed output), live =>
    live.filter (·.1 != input) ++ [(output, .resident destination)]
  | .deallocate input _, live => live.filter (·.1 != input)
  | .compute _ _ output, live => live ++ [(output, .resident .device)]

/-- The live tensors after instructions on the supplied inputs, which all live on the host side. -/
def Program.replay (supplied : List TensorId) (instructions : List Instruction) :
    List (TensorId × State) :=
  instructions.foldl (fun live i => i.replay live) (supplied.map fun id => (id, .resident .host))

/-- The identifier that is gone although its instruction failed: that of a refused release. -/
def Instruction.forfeited? : Instruction → ExecutionError → Option TensorId
  | .deallocate input _, .device _ _ => some input
  | _, _ => none

lemma Instruction.forfeited?_of_kind {i : Instruction} {e : ExecutionError}
    (h : e.kind ≠ .device) : i.forfeited? e = none := by
  cases i with
  | deallocate =>
    cases e with
    | device => exact absurd rfl h
    | _ => rfl
  | _ => rfl

/-- The identifier that is gone although the instruction failed at which a run stopped. -/
def Status.forfeited? (instructions : List Instruction) : Status → Option TensorId
  | .failed ⟨some record, e⟩ => instructions[record]?.bind (·.forfeited? e)
  | .failed ⟨none, _⟩ | .completed => none

/-!
### Snapshots
-/

namespace Pool

lemma snapshot_introduce (p : Pool η) (id : TensorId) (handle : η) (side : Residence) :
    (p.introduce id handle side).snapshot = p.snapshot ++ [(id, .resident side)] := by
  simp [snapshot, introduce, Entry.state]

lemma snapshot_place (p : Pool η) (id : TensorId) (handle : η) (side : Residence) :
    (p.place id handle side).snapshot =
      p.snapshot.map fun t => if t.1 = id then (id, .resident side) else t := by
  simp only [snapshot, place, List.map_map]
  apply List.map_congr_left
  intro e _
  by_cases h : e.id = id <;> simp [h, Entry.state]

lemma snapshot_retire (p : Pool η) (id : TensorId) (fate : Fate) :
    (p.retire id fate).snapshot = p.snapshot.filter (·.1 != id) := by
  simp [snapshot, retire, List.filter_map, Function.comp_def]

lemma snapshot_place_self {p : Pool η} (hids : p.ids.Nodup) {entry : Entry η}
    (hfind : p.find? entry.id = some entry) (handle : η) :
    (p.place entry.id handle entry.residence).snapshot = p.snapshot := by
  simp only [snapshot, place, List.map_map]
  apply List.map_congr_left
  intro e he
  by_cases h : e.id = entry.id
  · have heq := eq_of_id hids he (mem_of_find? hfind) h
    simp [heq, Entry.state]
  · simp [h]

end Pool

namespace Machine

variable {P : Provider σ η} {m m' : Machine σ η} {i : Instruction}

/-- A step that goes through is replayed. -/
lemma Passes.snapshot (h : m.Passes P i m') : m'.pool.snapshot = i.replay m.pool.snapshot := by
  cases h with
  | allocate => exact Pool.snapshot_introduce _ _ _ _
  | @transfer destination entry target handle =>
    cases target with
    | inPlace => exact Pool.snapshot_place _ _ _ _
    | renamed output =>
      simp only [Action.move, Pool.snapshot_introduce, Pool.snapshot_retire, Instruction.replay]
  | deallocate => exact Pool.snapshot_retire _ _ _
  | compute => exact Pool.snapshot_introduce _ _ _ _

/-- A step that fails takes away what is forfeited, and nothing else. -/
lemma Stops.snapshot {e : ExecutionError} (h : m.Stops P i e m') (hids : m.pool.ids.Nodup) :
    m'.pool.snapshot = m.pool.snapshot.filter fun t => i.forfeited? e ≠ some t.1 := by
  cases h with
  | plan hplan =>
    simp [Instruction.forfeited?_of_kind (Instruction.kind_of_plan hplan)]
  | allocate | compute => simp [Instruction.forfeited?]
  | transfer hfind => simp [Instruction.forfeited?, Pool.snapshot_place_self hids hfind]
  | @deallocate entry force =>
    rw [Pool.snapshot_retire]
    apply List.filter_congr
    intro t _
    by_cases h : t.1 = entry.id
    · simp [Instruction.forfeited?, h]
    · simp [Instruction.forfeited?, h, Ne.symm h]

lemma Runs.snapshot {instructions : List Instruction} (h : Runs P m instructions m') :
    m'.pool.snapshot = instructions.foldl (fun live i => i.replay live) m.pool.snapshot := by
  induction h with
  | nil => rfl
  | cons h _ ih => rw [ih, h.snapshot, List.foldl_cons]

/-- The pool behind a list of instructions is that of a replay of those that were executed, without
what is forfeited by the one that failed. -/
theorem snapshot_advance (P : Provider σ η) (instructions : List Instruction)
    (outputs : List TensorId) {m : Machine σ η} (hids : m.pool.ids.Nodup) :
    let progress := advance P instructions 0 m
    progress.machine.pool.snapshot =
        ((instructions.take progress.executed).foldl (fun live i => i.replay live)
          m.pool.snapshot).filter
            fun t => (progress.status outputs).forfeited? instructions ≠ some t.1 := by
  rcases advance_cases P instructions 0 m with
    ⟨m', hruns, hadvance⟩ | ⟨done, i, rest, before, e, m', rfl, hruns, hstops, hadvance⟩
  · rw [Nat.zero_add] at hadvance
    have hnone : (Progress.status ⟨instructions.length, none, m'⟩ outputs).forfeited?
        instructions = none := by
      simp only [Progress.status]
      split <;> rfl
    simp only [hadvance, hnone, List.take_length]
    simp [hruns.snapshot]
  · rw [Nat.zero_add] at hadvance
    have hforfeited : (Progress.status ⟨done.length, some e, m'⟩ outputs).forfeited?
        (done ++ i :: rest) = i.forfeited? e := by
      simp [Progress.status, Status.forfeited?]
    simp only [hadvance, hforfeited, List.take_left]
    rw [hstops.snapshot (hruns.nodup_ids hids), hruns.snapshot]

end Machine

lemma Pool.snapshot_ofInputs (inputs : List (TensorId × η)) :
    (ofInputs inputs).snapshot = (inputs.map Prod.fst).map fun id => (id, .resident .host) := by
  simp [snapshot, ofInputs, Entry.state, Function.comp_def]

namespace Program

/-- The surviving tensors of a run that accepts its inputs are those of a replay of the instructions
that were executed, without the identifier of a refused release. -/
theorem surviving_run (P : Provider σ η) (cfg : RunConfig) (p : Program)
    (inputs : List (TensorId × η)) (s : σ)
    (haccept : p.accept cfg (inputs.map Prod.fst) = .ok ()) :
    let report := (p.run P cfg inputs s).1
    report.surviving =
      (replay (inputs.map Prod.fst) (p.instructions.take report.executed)).filter
        fun t => report.status.forfeited? p.instructions ≠ some t.1 := by
  have hsupplied := (suppliedBy_of_accept haccept).1
  have hids : (Pool.ofInputs inputs).ids.Nodup := by rwa [Pool.ids_ofInputs]
  simp only [run, haccept, Pool.bindInputs_of_nodup inputs hsupplied, execute]
  have hreplay := Machine.snapshot_advance P p.instructions p.outputs
    (m := ⟨.ofInputs inputs, s⟩) hids
  rwa [Pool.snapshot_ofInputs] at hreplay

end Program

end TensorMachine
