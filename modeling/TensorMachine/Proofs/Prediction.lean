import TensorMachine.Device.Host
import TensorMachine.Proofs.Following

/-!
# What verification predicts

Verification executes a program on the symbolic device. Whatever stops it there, except for a
refusal of that device, depends on nothing but identifiers, residences and fates, and these are the
same on every device as long as the device grants what it is asked for. So a run on any device
comes to the outcome that verification found, unless the device refuses a call before.
-/

namespace TensorMachine

variable {σ η : Type}

/-- The device that grants every call. Its handles carry nothing. -/
def Provider.granting : Provider Unit Unit where
  name := "granting"
  allocate _ _ s := (.ok (), s)
  release _ _ s := (.ok (), s)
  transfer _ handle s := (.ok (), handle, s)
  compute _ _ s := (.ok (), s)

namespace Machine

/-- A machine beside one whose device grants every call: the pools are alike. -/
def Granted (m : Machine σ η) (q : Machine Unit Unit) : Prop := m.pool.Alike (fun _ => ()) q.pool

/-- A refusal of the device where the other machine got on. -/
def Refusal (e : ExecutionError) (answer : Except ExecutionError Unit) : Prop :=
  e.kind = .device ∧ answer = .ok ()

lemma outcome_follows_granting (P : Provider σ η) {m : Machine σ η} {q : Machine Unit Unit}
    (h : Granted m q) (operation : Opcode) (action : Action η) :
    StepFollows Granted Refusal (action.outcome P operation m)
      ((action.map fun _ => ()).outcome .granting operation q) := by
  unfold Action.outcome
  cases action with
  | allocate output type residence =>
    simp only [Action.map, Action.carryOut]
    rcases P.allocate type residence m.device with ⟨e | handle, s⟩
    · exact .excused ⟨rfl, rfl⟩ _ _
    · exact .done (h.introduce output handle residence)
  | transfer destination entry target =>
    simp only [Action.map, Action.carryOut]
    rcases P.transfer destination entry.handle m.device with ⟨e | _, handle, s⟩
    · exact .excused ⟨rfl, rfl⟩ _ _
    · exact .done (Action.move_alike h destination entry.id handle target)
  | release entry force =>
    simp only [Action.map, Action.carryOut]
    rcases P.release entry.handle force m.device with ⟨e | _, s⟩
    · exact .excused ⟨rfl, rfl⟩ _ _
    · exact .done (h.retire entry.id .freed)
  | compute kernel operands output =>
    simp only [Action.map, Action.carryOut]
    rcases P.compute kernel operands m.device with ⟨e | handle, s⟩
    · exact .excused ⟨rfl, rfl⟩ _ _
    · exact .done (h.introduce output handle .device)

lemma step_follows_granting (P : Provider σ η) (i : Instruction) (m : Machine σ η)
    (q : Machine Unit Unit) (h : Granted m q) :
    StepFollows Granted Refusal (m.step P i) (q.step .granting i) :=
  step_follows_of_alike h i fun operation action _ => outcome_follows_granting P h operation action

/-- A run on any device follows the run on the device that grants every call, and can only be
stopped earlier by a refusal. -/
theorem advance_follows_granting (P : Provider σ η) (instructions : List Instruction)
    {m : Machine σ η} {q : Machine Unit Unit} (h : Granted m q) :
    (advance P instructions 0 m).Follows Granted Refusal (advance .granting instructions 0 q) :=
  advance_follows (step_follows_granting P) instructions 0 h

end Machine

namespace Program

lemma missingOutput?_alike {η θ : Type} {f : η → θ} {p : Pool η} {q : Pool θ} (h : p.Alike f q)
    (outputs : List TensorId) : missingOutput? outputs q = missingOutput? outputs p := by
  simp only [missingOutput?, h.contains]

def granted (p : Program) : Progress Unit Unit :=
  Machine.advance .granting p.instructions 0 ⟨.ofInputs (p.inputs.map fun i => (i.id, ())), ()⟩

/-- A run on any device ends as it does on the device that grants every call, or it is stopped
earlier by a refusal. -/
theorem status_eq_granted_or_refused (P : Provider σ η) (p : Program) (inputs : List (TensorId × η))
    (s : σ) (hdeclared : (p.inputs.map (·.id)).Nodup)
    (hsame : ∀ id, id ∈ inputs.map Prod.fst ↔ id ∈ p.inputs.map (·.id)) :
    (Machine.advance P p.instructions 0 ⟨.ofInputs inputs, s⟩).status p.outputs =
        p.granted.status p.outputs ∨
      ∃ j e, (Machine.advance P p.instructions 0 ⟨.ofInputs inputs, s⟩).status p.outputs =
          .failed ⟨some j, e⟩ ∧ e.kind = .device ∧ j < p.granted.executed := by
  have hids : (p.inputs.map fun i => (i.id, ())).map Prod.fst = p.inputs.map (·.id) := by
    simp [Function.comp_def]
  have hgranted : Machine.Granted (⟨.ofInputs inputs, s⟩ : Machine σ η)
      ⟨.ofInputs (p.inputs.map fun i => (i.id, ())), ()⟩ := by
    apply Pool.alike_ofInputs
    · rwa [hids]
    · intro input hmem
      obtain ⟨i, hi, hid⟩ := List.mem_map.mp ((hsame input.1).mp (List.mem_map_of_mem hmem))
      exact List.mem_map.mpr ⟨i, hi, by rw [hid]⟩
    · intro id hid
      rw [hids] at hid
      exact (hsame id).mpr hid
  have hfollows := Machine.advance_follows_granting P p.instructions hgranted
  rcases hfollows.status p.outputs fun m q h => (missingOutput?_alike h p.outputs).symm with
    heq | ⟨j, e, hstatus, ⟨⟨hkind, -⟩, hlt⟩ | ⟨e', ⟨-, hok⟩, -⟩⟩
  · exact .inl heq
  · exact .inr ⟨j, e, hstatus, hkind, hlt⟩
  · cases hok

lemma executed_of_status {progress : Progress σ η} {outputs : List TensorId} {i : Nat}
    {e : ExecutionError} (h : progress.status outputs = .failed ⟨some i, e⟩) :
    progress.executed = i := by
  unfold Progress.status at h
  split at h
  · cases h
    rfl
  · split at h <;> cases h

def predicted (p : Program) : Status :=
  match p.verify with
  | .ok () => .completed
  | .error fault => .failed fault

lemma predicted_of_ok {p : Program} (h : p.verify = .ok ()) : p.predicted = .completed := by
  rw [predicted, h]

lemma predicted_of_error {p : Program} {fault : Fault} (h : p.verify = .error fault) :
    p.predicted = .failed fault := by
  rw [predicted, h]

/-- The prediction is how the run on the symbolic device ends, unless an input is declared twice. -/
theorem predicted_of_nodup (p : Program) (hdeclared : (p.inputs.map (·.id)).Nodup) :
    p.predicted =
      (Machine.advance .symbolic p.instructions 0 ⟨.ofInputs p.declared, ()⟩).status p.outputs := by
  simp only [predicted, verify, p.declare_of_nodup hdeclared, Progress.status]
  generalize Machine.advance .symbolic p.instructions 0 ⟨.ofInputs p.declared, ()⟩ = progress
  cases progress.stopped with
  | some e => rfl
  | none => cases missingOutput? p.outputs progress.machine.pool <;> rfl

/-- The prediction is how the run on the granting device ends, unless an input is declared twice or
the symbolic device refuses a call. -/
theorem granted_status (p : Program)
    (hduplicate : ∀ id, p.predicted ≠ .failed ⟨none, .protocol (.duplicateInput id)⟩)
    (hdevice : ∀ record e, p.predicted = .failed ⟨record, e⟩ → e.kind ≠ .device) :
    (p.inputs.map (·.id)).Nodup ∧ p.granted.status p.outputs = p.predicted := by
  rcases p.nodup_or_declare_eq_error with hdeclared | ⟨id, hrefused⟩
  · refine ⟨hdeclared, ?_⟩
    have hpredicted := p.predicted_of_nodup hdeclared
    rcases status_eq_granted_or_refused .symbolic p p.declared () hdeclared
      (fun id => by rw [map_fst_declared]) with heq | ⟨j, e, hfailed, hkind, -⟩
    · rw [hpredicted, heq]
    · exact absurd hkind (hdevice (some j) e (hpredicted.trans hfailed))
  · have hverify : p.verify = .error ⟨none, .protocol (.duplicateInput id)⟩ := by
      simp only [verify, hrefused]
    exact absurd (predicted_of_error hverify) (hduplicate id)

/-- A run with the declared inputs ends as its instructions do, unless verification stops it. -/
theorem run_status_cases (P : Provider σ η) (cfg : RunConfig) (p : Program)
    {inputs : List (TensorId × η)} (hbound : p.SuppliedBy (inputs.map Prod.fst)) (s : σ) :
    (p.run P cfg inputs s).1.status =
        (Machine.advance P p.instructions 0 ⟨.ofInputs inputs, s⟩).status p.outputs ∨
      (p.run P cfg inputs s).1.status = p.predicted := by
  have hcheck := (p.checkBindings_eq_ok_iff (inputs.map Prod.fst)).mpr hbound
  have hbind := Pool.bindInputs_of_nodup inputs hbound.1
  cases hscreen : p.screen cfg with
  | ok _ =>
    refine .inl ?_
    simp only [run, accept, hscreen, hcheck, hbind, execute]
  | error fault =>
    refine .inr ?_
    unfold screen at hscreen
    split at hscreen
    · rw [predicted_of_error hscreen]
      simp only [run, accept, screen, *, if_true, reject]
    · cases hscreen

end Program

/-- The run was stopped by a refusal of its device, at a record before the one with an index. -/
def Status.RefusedBefore (index : Nat) (status : Status) : Prop :=
  ∃ j operation cause, j < index ∧ status = .failed ⟨some j, .device operation cause⟩

lemma ExecutionError.eq_device_of_kind {e : ExecutionError} (h : e.kind = .device) :
    ∃ operation cause, e = .device operation cause := by
  cases e with
  | device operation cause => exact ⟨operation, cause, rfl⟩
  | decode _ => cases h
  | protocol _ => cases h
  | illegalTransition _ _ _ => cases h
  | useAfterFree _ => cases h
  | residencyMismatch _ _ _ => cases h

namespace Program

/-- A run with the declared inputs ends as predicted, or it is refused a call before the record at
which the granting device would have stopped. -/
theorem run_status_predicted (P : Provider σ η) (cfg : RunConfig) (p : Program)
    {inputs : List (TensorId × η)} (hbound : p.SuppliedBy (inputs.map Prod.fst)) (s : σ)
    (hduplicate : ∀ id, p.predicted ≠ .failed ⟨none, .protocol (.duplicateInput id)⟩)
    (hdevice : ∀ record e, p.predicted = .failed ⟨record, e⟩ → e.kind ≠ .device) :
    (p.run P cfg inputs s).1.status = p.predicted ∨
      (p.run P cfg inputs s).1.status.RefusedBefore p.granted.executed := by
  obtain ⟨hdeclared, hgranted⟩ := p.granted_status hduplicate hdevice
  rcases p.run_status_cases P cfg hbound s with hrun | hrun
  · rw [hrun]
    rcases p.status_eq_granted_or_refused P inputs s hdeclared hbound.2 with
      heq | ⟨j, e, hstatus, hkind, hlt⟩
    · exact .inl (heq.trans hgranted)
    · obtain ⟨operation, cause, rfl⟩ := ExecutionError.eq_device_of_kind hkind
      exact .inr ⟨j, operation, cause, hlt, hstatus⟩
  · exact .inl hrun

lemma granted_executed_le (p : Program) : p.granted.executed ≤ p.instructions.length := by
  have h := Machine.executed_advance_le .granting p.instructions 0
    ⟨.ofInputs (p.inputs.map fun i => (i.id, ())), ()⟩
  rwa [Nat.zero_add] at h

lemma refusedBefore_length {p : Program} {status : Status}
    (h : status.RefusedBefore p.granted.executed) : status.RefusedBefore p.instructions.length := by
  obtain ⟨j, operation, cause, hlt, hstatus⟩ := h
  exact ⟨j, operation, cause, Nat.lt_of_lt_of_le hlt p.granted_executed_le, hstatus⟩

/-- A run with the declared inputs, on whatever device, ends as verification says or is stopped
before by a refusal of the device. No verified program breaks the protocol or the lifecycle. -/
theorem verify_predicts_run (P : Provider σ η) (cfg : RunConfig) (p : Program)
    (inputs : List (TensorId × η)) (s : σ) (hbound : p.SuppliedBy (inputs.map Prod.fst)) :
    (p.verify = .ok () →
      (p.run P cfg inputs s).1.status = .completed ∨
        (p.run P cfg inputs s).1.status.RefusedBefore p.instructions.length) ∧
    (∀ i e, p.verify = .error ⟨some i, e⟩ → e.kind ≠ .device →
      (p.run P cfg inputs s).1.status = .failed ⟨some i, e⟩ ∨
        (p.run P cfg inputs s).1.status.RefusedBefore i) ∧
    ∀ id, p.verify = .error ⟨none, .protocol (.missingOutput id)⟩ →
      (p.run P cfg inputs s).1.status = .failed ⟨none, .protocol (.missingOutput id)⟩ ∨
        (p.run P cfg inputs s).1.status.RefusedBefore p.instructions.length := by
  have hrun := p.run_status_predicted P cfg hbound s
  refine ⟨fun hverify => ?_, fun i e hverify hkind => ?_, fun id hverify => ?_⟩
  · have hpredicted := predicted_of_ok hverify
    rw [hpredicted] at hrun
    exact (hrun (by simp) (by simp)).imp_right refusedBefore_length
  · have hpredicted := predicted_of_error hverify
    have hduplicate : ∀ id, p.predicted ≠ .failed ⟨none, .protocol (.duplicateInput id)⟩ := by
      simp [hpredicted]
    have hdevice : ∀ record e, p.predicted = .failed ⟨record, e⟩ → e.kind ≠ .device := by
      rw [hpredicted]
      rintro record e ⟨⟩
      exact hkind
    have hgranted := (p.granted_status hduplicate hdevice).2
    rw [hpredicted] at hgranted
    have hstatus := hrun hduplicate hdevice
    rwa [hpredicted, executed_of_status hgranted] at hstatus
  · have hpredicted := predicted_of_error hverify
    rw [hpredicted] at hrun
    refine (hrun (by simp) ?_).imp_right refusedBefore_length
    rintro record e ⟨⟩ hkind
    cases hkind

/-- A transfer to a device without memory: verification finds nothing, so that the run completes or
is refused the transfer. -/
theorem verify_predicts_run_transfer :
    let p : Program := ⟨[⟨1, ⟨.f32, [2]⟩⟩], [1], [.transfer .device 1 .inPlace]⟩
    let t : HostTensor := ⟨⟨1, ⟨.f32, [2]⟩, .host⟩, List.replicate 8 0⟩
    let d := ((HostDevice.new 0 16).allocate ⟨.f32, [2]⟩ .host none).2
    p.SuppliedBy [1] ∧ p.verify = .ok () ∧
      ((p.run HostDevice.provider {} [(1, t)] d).1.status = .completed ∨
        (p.run HostDevice.provider {} [(1, t)] d).1.status.RefusedBefore 1) := by
  intro p t d
  have hbound : p.SuppliedBy [1] := (p.checkBindings_eq_ok_iff [1]).mp rfl
  have hverify : p.verify = .ok () := rfl
  refine ⟨hbound, hverify, ?_⟩
  exact (verify_predicts_run HostDevice.provider {} p [(1, t)] d hbound).1 hverify

end Program

end TensorMachine
