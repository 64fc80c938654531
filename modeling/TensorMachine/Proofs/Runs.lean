import TensorMachine.Proofs.PoolContents

/-!
# Runs of instructions

A step that goes through makes exactly one call, which the device grants, and changes the pool as
the instruction says. A step that fails makes no call or one that the device refuses, and leaves
the pool as it was, but that a release takes the identifier away in any case. A list of instructions
is executed by such steps up to the first that fails.
-/

namespace TensorMachine

variable {σ η : Type}

namespace Machine

/-- The steps that go through: the instruction and the machine behind it. -/
inductive Passes (P : Provider σ η) (m : Machine σ η) : Instruction → Machine σ η → Prop
  | allocate {output : TensorId} {type : TensorType} {residence : Residence} {handle : η} {s : σ}
    (hfresh : m.pool.isKnown output = false)
    (hcall : P.allocate type residence m.device = (.ok handle, s)) :
    Passes P m (.allocate output type residence) ⟨m.pool.introduce output handle residence, s⟩
  | transfer {destination : Residence} {entry : Entry η} {target : Target} {handle : η} {s : σ}
    (hfind : m.pool.find? entry.id = some entry) (hside : entry.residence = destination.opposite)
    (hfresh : ∀ output ∈ target.ids, m.pool.isKnown output = false)
    (hcall : P.transfer destination entry.handle m.device = (.ok (), handle, s)) :
    Passes P m (.transfer destination entry.id target)
      ⟨Action.move m.pool destination entry.id handle target, s⟩
  | deallocate {entry : Entry η} {force : Bool} {s : σ}
    (hfind : m.pool.find? entry.id = some entry)
    (hcall : P.release entry.handle force m.device = (.ok (), s)) :
    Passes P m (.deallocate entry.id force) ⟨m.pool.retire entry.id .freed, s⟩
  | compute {kernel : Kernel} {entries : List (Entry η)} {output : TensorId} {handle : η} {s : σ}
    (harity : entries.length = kernel.arity)
    (hentries : ∀ e ∈ entries, m.pool.find? e.id = some e ∧ e.residence = .device)
    (hfresh : m.pool.isKnown output = false)
    (hcall : P.compute kernel (entries.map (·.handle)) m.device = (.ok handle, s)) :
    Passes P m (.compute kernel (entries.map (·.id)) output)
      ⟨m.pool.introduce output handle .device, s⟩

/-- The steps that fail: the instruction, the error and the machine behind them. -/
inductive Stops (P : Provider σ η) (m : Machine σ η) :
    Instruction → ExecutionError → Machine σ η → Prop
  | plan {i : Instruction} {e : ExecutionError} (hplan : i.plan m.pool = .error e) :
    Stops P m i e m
  | allocate {output : TensorId} {type : TensorType} {residence : Residence} {e : DeviceError}
    {s : σ} (hfresh : m.pool.isKnown output = false)
    (hcall : P.allocate type residence m.device = (.error e, s)) :
    Stops P m (.allocate output type residence) (.device .allocate e) ⟨m.pool, s⟩
  | transfer {destination : Residence} {entry : Entry η} {target : Target} {e : DeviceError}
    {handle : η} {s : σ} (hfind : m.pool.find? entry.id = some entry)
    (hside : entry.residence = destination.opposite)
    (hfresh : ∀ output ∈ target.ids, m.pool.isKnown output = false)
    (hcall : P.transfer destination entry.handle m.device = (.error e, handle, s)) :
    Stops P m (.transfer destination entry.id target) (.device (.transferTo destination) e)
      ⟨m.pool.place entry.id handle entry.residence, s⟩
  | deallocate {entry : Entry η} {force : Bool} {e : DeviceError} {s : σ}
    (hfind : m.pool.find? entry.id = some entry)
    (hcall : P.release entry.handle force m.device = (.error e, s)) :
    Stops P m (.deallocate entry.id force) (.device .deallocate e)
      ⟨m.pool.retire entry.id .freed, s⟩
  | compute {kernel : Kernel} {entries : List (Entry η)} {output : TensorId} {e : DeviceError}
    {s : σ} (harity : entries.length = kernel.arity)
    (hentries : ∀ x ∈ entries, m.pool.find? x.id = some x ∧ x.residence = .device)
    (hfresh : m.pool.isKnown output = false)
    (hcall : P.compute kernel (entries.map (·.handle)) m.device = (.error e, s)) :
    Stops P m (.compute kernel (entries.map (·.id)) output) (.device .compute e) ⟨m.pool, s⟩

theorem step_cases (P : Provider σ η) (i : Instruction) (m : Machine σ η) :
    (∃ m', m.step P i = (.ok (), m') ∧ m.Passes P i m') ∨
      ∃ e m', m.step P i = (.error e, m') ∧ m.Stops P i e m' := by
  cases hplan : i.plan m.pool with
  | error e => exact .inr ⟨e, m, step_of_plan_error P hplan, .plan hplan⟩
  | ok action =>
    rw [step_of_plan_ok P hplan]
    cases Instruction.planned_of_plan hplan with
    | @allocate output type residence hfresh =>
      simp only [Action.outcome, Action.carryOut]
      rcases hcall : P.allocate type residence m.device with ⟨e | handle, s⟩
      · exact .inr ⟨_, _, rfl, .allocate hfresh hcall⟩
      · exact .inl ⟨_, rfl, .allocate hfresh hcall⟩
    | @transfer destination entry target hfind hside hfresh =>
      simp only [Action.outcome, Action.carryOut]
      rcases hcall : P.transfer destination entry.handle m.device with ⟨e | _, handle, s⟩
      · exact .inr ⟨_, _, rfl, .transfer hfind hside hfresh hcall⟩
      · exact .inl ⟨_, rfl, .transfer hfind hside hfresh hcall⟩
    | @deallocate entry force hfind =>
      simp only [Action.outcome, Action.carryOut]
      rcases hcall : P.release entry.handle force m.device with ⟨e | _, s⟩
      · exact .inr ⟨_, _, rfl, .deallocate hfind hcall⟩
      · exact .inl ⟨_, rfl, .deallocate hfind hcall⟩
    | @compute kernel entries output harity hentries hfresh =>
      rcases hcall : P.compute kernel (entries.map (·.handle)) m.device with ⟨e | handle, s⟩ <;>
        simp only [Action.outcome, Action.carryOut, hcall]
      · exact .inr ⟨_, _, rfl, .compute harity hentries hfresh hcall⟩
      · exact .inl ⟨_, rfl, .compute harity hentries hfresh hcall⟩

/-- The machines that are reached when all instructions of a list go through. -/
inductive Runs (P : Provider σ η) : Machine σ η → List Instruction → Machine σ η → Prop
  | nil {m : Machine σ η} : Runs P m [] m
  | cons {m m' m'' : Machine σ η} {i : Instruction} {rest : List Instruction}
    (h : m.Passes P i m') (hrest : Runs P m' rest m'') : Runs P m (i :: rest) m''

/-- All instructions go through, or some do and the one behind them fails. -/
theorem advance_cases (P : Provider σ η) (instructions : List Instruction) (n : Nat)
    (m : Machine σ η) :
    (∃ m', Runs P m instructions m' ∧
      advance P instructions n m = ⟨n + instructions.length, none, m'⟩) ∨
    ∃ done i rest m' e m'', instructions = done ++ i :: rest ∧ Runs P m done m' ∧
      m'.Stops P i e m'' ∧ advance P instructions n m = ⟨n + done.length, some e, m''⟩ := by
  induction instructions generalizing n m with
  | nil => exact .inl ⟨m, .nil, rfl⟩
  | cons i instructions ih =>
    rw [advance]
    rcases step_cases P i m with ⟨m', hstep, hpasses⟩ | ⟨e, m', hstep, hstops⟩
    · simp only [hstep]
      rcases ih (n + 1) m' with
        ⟨final, hruns, hadvance⟩ | ⟨done, x, rest, before, e, final, rfl, hruns, hx, hadvance⟩
      · refine .inl ⟨final, .cons hpasses hruns, ?_⟩
        rw [hadvance, List.length_cons, Nat.add_assoc, Nat.add_comm 1]
      · refine .inr ⟨i :: done, x, rest, before, e, final, rfl, .cons hpasses hruns, hx, ?_⟩
        rw [hadvance, List.length_cons, Nat.add_assoc, Nat.add_comm 1]
    · simp only [hstep]
      exact .inr ⟨[], i, instructions, m, e, m', rfl, .nil, hstops, rfl⟩

/-- What every step keeps is kept by a list of instructions, wherever it stops. -/
theorem advance_keeps {P : Provider σ η} {I : Machine σ η → Prop}
    (hstep : ∀ i m, I m → I (m.step P i).2) (instructions : List Instruction) (n : Nat)
    {m : Machine σ η} (h : I m) : I (advance P instructions n m).machine := by
  induction instructions generalizing n m with
  | nil => exact h
  | cons i rest ih =>
    have hi := hstep i m h
    rw [advance]
    rcases hcall : m.step P i with ⟨_ | _, m'⟩
    · rw [hcall] at hi
      exact hi
    · rw [hcall] at hi
      exact ih (n + 1) hi

/-!
### Live identifiers
-/

variable {P : Provider σ η} {m m' : Machine σ η} {i : Instruction}

lemma Passes.nodup_ids (h : m.Passes P i m') (hids : m.pool.ids.Nodup) : m'.pool.ids.Nodup := by
  cases h with
  | allocate hfresh => exact Pool.nodup_ids_introduce hids (Pool.find?_of_fresh hfresh) _ _
  | transfer hfind hside hfresh => exact Action.nodup_ids_move hids _ _ _ hfresh
  | deallocate => exact Pool.nodup_ids_retire hids _ _
  | compute _ _ hfresh => exact Pool.nodup_ids_introduce hids (Pool.find?_of_fresh hfresh) _ _

lemma Stops.nodup_ids {e : ExecutionError} (h : m.Stops P i e m') (hids : m.pool.ids.Nodup) :
    m'.pool.ids.Nodup := by
  cases h with
  | plan | allocate | compute => exact hids
  | transfer => rwa [Pool.ids_place]
  | deallocate => exact Pool.nodup_ids_retire hids _ _

lemma Runs.nodup_ids {instructions : List Instruction} (h : Runs P m instructions m')
    (hids : m.pool.ids.Nodup) : m'.pool.ids.Nodup := by
  induction h with
  | nil => exact hids
  | cons h _ ih => exact ih (h.nodup_ids hids)

lemma nodup_ids_step (P : Provider σ η) (i : Instruction) (hids : m.pool.ids.Nodup) :
    (m.step P i).2.pool.ids.Nodup := by
  rcases step_cases P i m with ⟨m', hstep, hpasses⟩ | ⟨e, m', hstep, hstops⟩
  · rw [hstep]
    exact hpasses.nodup_ids hids
  · rw [hstep]
    exact hstops.nodup_ids hids

/-- The live identifiers differ wherever a list of instructions stops. -/
theorem nodup_ids_advance (P : Provider σ η) (instructions : List Instruction) (n : Nat)
    (hids : m.pool.ids.Nodup) : (advance P instructions n m).machine.pool.ids.Nodup :=
  advance_keeps (I := fun m => m.pool.ids.Nodup) (fun i _ hids => nodup_ids_step P i hids)
    instructions n hids

end Machine

/-!
### Handing over
-/

lemma Progress.mem_ids_of_completed {progress : Progress σ η} {outputs : List TensorId}
    (h : progress.status outputs = .completed) {id : TensorId} (hid : id ∈ outputs) :
    id ∈ progress.machine.pool.ids := by
  unfold status at h
  cases hstopped : progress.stopped with
  | some e =>
    rw [hstopped] at h
    cases h
  | none =>
    rw [hstopped] at h
    cases hmissing : Program.missingOutput? outputs progress.machine.pool with
    | some missing =>
      rw [hmissing] at h
      cases h
    | none =>
      have hlive := List.find?_eq_none.mp hmissing id hid
      rw [← Pool.contains_iff_mem_ids]
      simpa using hlive

/-- What is handed back is held, and the rest stays in the order that it had. -/
lemma Progress.holdings_handOver (progress : Progress σ η) (cfg : RunConfig)
    (outputs : List TensorId) :
    let handed := progress.handOver cfg outputs
    (∀ output ∈ handed.1, output ∈ progress.machine.pool.holdings) ∧
      (∀ id, id ∈ handed.1.map Prod.fst ↔
        id ∈ outputs ∧ progress.status outputs = .completed ∧ cfg.retainOutputs = true) ∧
      handed.2.holdings =
        progress.machine.pool.holdings.filter (·.1 ∉ handed.1.map Prod.fst) := by
  intro handed
  by_cases hretained : progress.status outputs = .completed ∧ cfg.retainOutputs = true
  · have hhanded : handed = Pool.takeOutputs outputs progress.machine.pool := by
      simp only [handed, handOver, hretained.1, hretained.2, if_true]
    have hlive : ∀ id ∈ outputs, id ∈ progress.machine.pool.ids := fun id =>
      mem_ids_of_completed hretained.1
    rw [hhanded]
    refine ⟨fun output => Pool.mem_holdings_of_takeOutputs, fun id => ?_, ?_⟩
    · rw [Pool.mem_map_fst_takeOutputs]
      exact ⟨fun h => ⟨h.1, hretained⟩, fun h => ⟨h.1, hlive id h.1⟩⟩
    · rw [Pool.holdings_takeOutputs]
      apply List.filter_congr
      intro t _
      rw [decide_eq_decide, Pool.mem_map_fst_takeOutputs]
      exact not_congr ⟨fun h => ⟨h, hlive t.1 h⟩, fun h => h.1⟩
  · have hhanded : handed = ([], progress.machine.pool) := by
      simp only [handed, handOver]
      split
      · next hstatus => exact if_neg fun hretain => hretained ⟨hstatus, hretain⟩
      · rfl
    rw [hhanded]
    refine ⟨nofun, fun id => ?_, by simp⟩
    simp [hretained]

end TensorMachine
