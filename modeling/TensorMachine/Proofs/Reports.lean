import TensorMachine.Proofs.Custody

/-!
# Reports

What a report tells is settled before the handles at the end are released, and the numbers of these
releases agree with it. A run that was rejected has released what was supplied. Otherwise each
tensor that survived was handed back, released, or refused and noted in a diagnostic.
-/

namespace TensorMachine

variable {σ η : Type}

/-!
### Releases and outputs
-/

/-- Every release at the end is counted or noted. -/
lemma count_releaseAll (P : Provider σ η) (force : Bool) (handles : List (TensorId × η)) (s : σ) :
    (releaseAll P force handles s).released + (releaseAll P force handles s).diagnostics.length =
      handles.length := by
  induction handles generalizing s with
  | nil => rfl
  | cons input handles ih =>
    obtain ⟨id, handle⟩ := input
    rw [releaseAll]
    rcases P.release handle force s with ⟨e | _, s'⟩
    · have hrest := ih s'
      simp only [List.length_cons]
      omega
    · have hrest := ih s'
      simp only [List.length_cons]
      omega

/-- Live identifiers are taken out in the order in which they are listed, each at its first
mention. -/
lemma Pool.map_fst_takeOutputs (outputs : List TensorId) (p : Pool η) :
    (takeOutputs outputs p).1.map Prod.fst = (outputs.filter (· ∈ p.ids)).eraseDups := by
  induction outputs generalizing p with
  | nil => simp [takeOutputs]
  | cons id outputs ih =>
    rcases p.remove_cases id with ⟨hgone, cause, hremove⟩ | ⟨e, hfind, rfl, hremove⟩
    · rw [List.filter_cons_of_neg (by simpa using hgone)]
      simp only [takeOutputs, hremove, ih]
    · have hlive : e.id ∈ p.ids := List.mem_map_of_mem (mem_of_find? hfind)
      rw [List.filter_cons_of_pos (by simpa using hlive), List.eraseDups_cons, List.filter_filter]
      simp only [takeOutputs, hremove, List.map_cons, ih]
      congr 2
      apply List.filter_congr
      intro x _
      by_cases hx : x = e.id <;> simp [ids_retire, hx]

lemma Pool.nodup_takeOutputs (outputs : List TensorId) (p : Pool η) :
    ((takeOutputs outputs p).1.map Prod.fst).Nodup := by
  induction outputs generalizing p with
  | nil => exact List.nodup_nil
  | cons id outputs ih =>
    rcases p.remove_cases id with ⟨-, cause, hremove⟩ | ⟨e, -, rfl, hremove⟩
    · simp only [takeOutputs, hremove]
      exact ih p
    · simp only [takeOutputs, hremove, List.map_cons, List.nodup_cons]
      refine ⟨?_, ih _⟩
      rw [map_fst_takeOutputs, List.mem_eraseDups, List.mem_filter]
      simp [ids_retire]

/-!
### Progress
-/

/-- Instructions stop short of their end exactly if one of them fails. -/
lemma Machine.executed_advance (P : Provider σ η) (instructions : List Instruction)
    (m : Machine σ η) :
    let progress := advance P instructions 0 m
    (progress.stopped = none ∧ progress.executed = instructions.length) ∨
      ∃ e, progress.stopped = some e ∧ progress.executed < instructions.length := by
  rcases advance_cases P instructions 0 m with
    ⟨m', -, hadvance⟩ | ⟨done, i, rest, m', e, m'', rfl, -, -, hadvance⟩
  · rw [hadvance]
    exact .inl ⟨rfl, Nat.zero_add _⟩
  · rw [hadvance]
    refine .inr ⟨e, rfl, ?_⟩
    simp only [List.length_append, List.length_cons]
    omega

lemma Progress.status_of_stopped {progress : Progress σ η} {e : ExecutionError}
    (h : progress.stopped = some e) (outputs : List TensorId) :
    progress.status outputs = .failed ⟨some progress.executed, e⟩ := by
  simp only [status, h]

/-- Instructions that all went through end well unless a declared output is not live. -/
lemma Progress.status_of_done {progress : Progress σ η} (h : progress.stopped = none)
    (outputs : List TensorId) :
    progress.status outputs =
      match outputs.find? (· ∉ progress.machine.pool.ids) with
      | some id => .failed ⟨none, .protocol (.missingOutput id)⟩
      | none => .completed := by
  have hmissing : Program.missingOutput? outputs progress.machine.pool =
      outputs.find? (· ∉ progress.machine.pool.ids) := by
    unfold Program.missingOutput?
    congr 1
    funext id
    rw [Bool.eq_iff_iff, Bool.not_eq_true', decide_eq_true_eq, ← Pool.contains_iff_mem_ids,
      Bool.not_eq_true]
  unfold status
  rw [h]
  cases hfind : outputs.find? (· ∉ progress.machine.pool.ids) with
  | none => rw [hmissing, hfind]
  | some id => rw [hmissing, hfind]

/-!
### Whole runs
-/

namespace Report

/-- A report without what the releases at the end of the run came to. -/
def settled (report : Report η) : Report η := { report with released := 0, diagnostics := [] }

/-- The report of a run that stopped in front of its instructions, with a number of handles
supplied. -/
structure Rejected (fault : Fault) (supplied : Nat) (report : Report η) : Prop where
  status : report.status = .failed fault
  executed : report.executed = 0
  surviving : report.surviving = []
  outputs : report.outputs = []
  released : report.released + report.diagnostics.length = supplied

/-- The report of a run that came as far as some progress tells. How it ended was settled there,
before anything was released. -/
structure Consistent (cfg : RunConfig) (p : Program) (progress : Progress σ η)
    (report : Report η) : Prop where
  status : report.status = progress.status p.outputs
  executed : report.executed = progress.executed
  surviving : report.surviving = progress.machine.pool.snapshot
  accounted : report.surviving.length =
    report.outputs.length + report.released + report.diagnostics.length
  stopped : ∀ i e, report.status = .failed ⟨some i, e⟩ →
    report.executed = i ∧ i < p.instructions.length
  finished : report.status = .completed ∨ (∃ e, report.status = .failed ⟨none, e⟩) →
    report.executed = p.instructions.length
  ending : report.executed = p.instructions.length →
    report.status =
      match p.outputs.find? (· ∉ report.survivingIds) with
      | some id => .failed ⟨none, .protocol (.missingOutput id)⟩
      | none => .completed
  retained : report.status = .completed → cfg.retainOutputs = true →
    report.outputs.map Prod.fst = p.outputs.eraseDups
  handed : ∀ output ∈ report.outputs, output ∈ progress.machine.pool.holdings
  withheld : report.status ≠ .completed ∨ cfg.retainOutputs = false → report.outputs = []

end Report

lemma rejected_reject (P : Provider σ η) (cfg : RunConfig) (fault : Fault)
    (inputs : List (TensorId × η)) (s : σ) :
    (reject P cfg fault [] inputs s).1.Rejected fault inputs.length :=
  ⟨rfl, rfl, rfl, rfl, count_releaseAll P cfg.forceTeardown inputs s⟩

namespace Progress

lemma length_handOver (progress : Progress σ η) (cfg : RunConfig) (outputs : List TensorId)
    (hids : progress.machine.pool.ids.Nodup) :
    (progress.handOver cfg outputs).1.length +
      (progress.handOver cfg outputs).2.drain.1.length = progress.machine.pool.snapshot.length := by
  have hparts := (progress.handOver_perm (fun _ => ()) cfg outputs hids).length_eq
  simpa [Pool.identities, Pool.drain, Pool.snapshot] using hparts

lemma map_fst_handOver {progress : Progress σ η} {cfg : RunConfig} {outputs : List TensorId}
    (hstatus : progress.status outputs = .completed) (hretain : cfg.retainOutputs = true) :
    (progress.handOver cfg outputs).1.map Prod.fst = outputs.eraseDups := by
  have hlive : outputs.filter (· ∈ progress.machine.pool.ids) = outputs := by
    rw [List.filter_eq_self]
    intro id hid
    exact decide_eq_true (mem_ids_of_completed hstatus hid)
  simp only [handOver, hstatus, hretain, if_true]
  rw [Pool.map_fst_takeOutputs, hlive]

end Progress

namespace Program

def Reports (P : Provider σ η) (cfg : RunConfig) (p : Program) (inputs : List (TensorId × η))
    (s : σ) (report : Report η) : Prop :=
  match p.accept cfg (inputs.map Prod.fst) with
  | .error fault => report.Rejected fault inputs.length
  | .ok () =>
    report.Consistent cfg p (Machine.advance P p.instructions 0 ⟨.ofInputs inputs, s⟩)

lemma consistent_execute (P : Provider σ η) (cfg : RunConfig) (p : Program) {pool : Pool η} (s : σ)
    (hids : pool.ids.Nodup) :
    (p.execute P cfg pool s).1.Consistent cfg p
      (Machine.advance P p.instructions 0 ⟨pool, s⟩) := by
  have hlive : (Machine.advance P p.instructions 0 ⟨pool, s⟩).machine.pool.ids.Nodup :=
    Machine.nodup_ids_advance P p.instructions 0 hids
  have hexecuted := Machine.executed_advance P p.instructions ⟨pool, s⟩
  simp only [execute]
  generalize Machine.advance P p.instructions 0 ⟨pool, s⟩ = progress at hlive hexecuted ⊢
  refine ⟨rfl, rfl, rfl, ?_, ?_, ?_, ?_, ?_, ?_, ?_⟩
  · have hparts := progress.length_handOver cfg p.outputs hlive
    have hgone := count_releaseAll P cfg.forceTeardown
      (progress.handOver cfg p.outputs).2.drain.1 progress.machine.device
    dsimp only
    omega
  · intro i e hstatus
    rcases hexecuted with ⟨hdone, -⟩ | ⟨cause, hstopped, hlt⟩
    · rw [progress.status_of_done hdone p.outputs] at hstatus
      split at hstatus <;> cases hstatus
    · cases (progress.status_of_stopped hstopped p.outputs).symm.trans hstatus
      exact ⟨rfl, hlt⟩
  · intro hstatus
    rcases hexecuted with ⟨-, hall⟩ | ⟨cause, hstopped, -⟩
    · exact hall
    · rw [progress.status_of_stopped hstopped p.outputs] at hstatus
      rcases hstatus with hstatus | ⟨e, hstatus⟩ <;> cases hstatus
  · intro hall
    rcases hexecuted with ⟨hdone, -⟩ | ⟨cause, -, hlt⟩
    · simp only [Report.survivingIds, Pool.map_fst_snapshot]
      exact progress.status_of_done hdone p.outputs
    · exact absurd hall (Nat.ne_of_lt hlt)
  · exact Progress.map_fst_handOver
  · exact (progress.holdings_handOver cfg p.outputs).1
  · intro hwithheld
    by_contra hsome
    obtain ⟨hcompleted, hretain⟩ := progress.handOver_outputs cfg p.outputs hsome
    rcases hwithheld with hfailed | hreleased
    · exact hfailed hcompleted
    · rw [hretain] at hreleased
      cases hreleased

lemma reports_run (P : Provider σ η) (cfg : RunConfig) (p : Program)
    (inputs : List (TensorId × η)) (s : σ) :
    p.Reports P cfg inputs s (p.run P cfg inputs s).1 := by
  unfold Reports run
  cases haccept : p.accept cfg (inputs.map Prod.fst) with
  | error fault => exact rejected_reject P cfg fault inputs s
  | ok _ =>
    have hids := (suppliedBy_of_accept haccept).1
    rw [Pool.bindInputs_of_nodup inputs hids]
    exact consistent_execute P cfg p s (by rwa [Pool.ids_ofInputs])

/-- Asked for an identifier, the report tells what it lists under it: the state of a tensor that
survived, and the handle that was handed back. -/
theorem lookup_run (P : Provider σ η) (cfg : RunConfig) (p : Program)
    (inputs : List (TensorId × η)) (s : σ) (id : TensorId) :
    let report := (p.run P cfg inputs s).1
    (∀ state, report.survivingState? id = some state ↔ (id, state) ∈ report.surviving) ∧
      ∀ handle, report.output? id = some handle ↔ (id, handle) ∈ report.outputs := by
  intro report
  have hkeys : (report.surviving.map Prod.fst).Nodup ∧ (report.outputs.map Prod.fst).Nodup := by
    simp only [report, run]
    cases haccept : p.accept cfg (inputs.map Prod.fst) with
    | error fault => exact ⟨List.nodup_nil, List.nodup_nil⟩
    | ok _ =>
      have hids := (suppliedBy_of_accept haccept).1
      rw [Pool.bindInputs_of_nodup inputs hids]
      have hlive := Machine.nodup_ids_advance P p.instructions 0
        (m := ⟨.ofInputs inputs, s⟩) (by rwa [Pool.ids_ofInputs])
      simp only [execute, Progress.handOver, Pool.map_fst_snapshot]
      refine ⟨hlive, ?_⟩
      split
      · split
        · exact Pool.nodup_takeOutputs _ _
        · exact List.nodup_nil
      · exact List.nodup_nil
  exact ⟨fun _ => lookup_eq_some_iff_mem hkeys.1, fun _ => lookup_eq_some_iff_mem hkeys.2⟩

lemma settled_run (P Q : Provider σ η) (cfg : RunConfig) (p : Program)
    (inputs : List (TensorId × η)) (s : σ)
    (h : Machine.advance Q p.instructions 0 ⟨.ofInputs inputs, s⟩ =
      Machine.advance P p.instructions 0 ⟨.ofInputs inputs, s⟩) :
    (p.run Q cfg inputs s).1.settled = (p.run P cfg inputs s).1.settled := by
  unfold run
  cases haccept : p.accept cfg (inputs.map Prod.fst) with
  | error fault => rfl
  | ok _ =>
    rw [Pool.bindInputs_of_nodup inputs (suppliedBy_of_accept haccept).1]
    simp only [execute, h, Report.settled]

/-- The report of every run is consistent, whether the run is rejected, fails or completes, and how
the releases at its end are answered changes nothing of how it ended. -/
theorem run_report_consistent (P : Provider σ η) (cfg : RunConfig) (inputs : List (TensorId × η))
    (s : σ) :
    (∀ p : Program, p.Reports P cfg inputs s (p.run P cfg inputs s).1) ∧
      (∀ bytes : Bytes,
        match decode bytes with
        | .error e =>
          (runBytes P cfg bytes inputs s).1.Rejected ⟨e.record?, .decode e⟩ inputs.length
        | .ok p => p.Reports P cfg inputs s (runBytes P cfg bytes inputs s).1) ∧
      ∀ (p : Program) (Q : Provider σ η),
        Machine.advance Q p.instructions 0 ⟨.ofInputs inputs, s⟩ =
          Machine.advance P p.instructions 0 ⟨.ofInputs inputs, s⟩ →
        (p.run Q cfg inputs s).1.settled = (p.run P cfg inputs s).1.settled := by
  refine ⟨fun p => p.reports_run P cfg inputs s, fun bytes => ?_,
    fun p Q => p.settled_run P Q cfg inputs s⟩
  unfold runBytes
  cases decode bytes with
  | error e => exact rejected_reject P cfg _ inputs s
  | ok p => exact p.reports_run P cfg inputs s

/-- A run on a host device that refuses the release at the end, which the diagnostics note, ends as
it does on one that grants it. -/
theorem run_report_consistent_refused :
    let p : Program := ⟨[], [2], [.allocate 2 ⟨.u8, [1]⟩ .host, .allocate 3 ⟨.u8, [1]⟩ .device]⟩
    let refusing : Provider HostDevice HostTensor :=
      { HostDevice.provider with release := fun _ _ d => (.error (.backend .release), d) }
    let d := HostDevice.new 64 64
    (p.run refusing {} [] d).1.diagnostics = [⟨3, .backend .release⟩] ∧
      (p.run HostDevice.provider {} [] d).1.diagnostics = [] ∧
      (p.run refusing {} [] d).1.settled = (p.run HostDevice.provider {} [] d).1.settled := by
  intro p refusing d
  exact ⟨rfl, rfl, (run_report_consistent HostDevice.provider {} [] d).2.2 p refusing rfl⟩

end Program

end TensorMachine
