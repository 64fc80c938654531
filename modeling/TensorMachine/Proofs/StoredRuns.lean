import TensorMachine.Device.Host
import TensorMachine.Machine.StoredRun
import TensorMachine.Proofs.StoreCalls
import TensorMachine.Proofs.Survivors

/-!
# What survives a run on a store

A run on a store comes to the same report and leaves the same device as that of a machine: each
instruction on the store follows the step of the machine, whatever the device answers. So its
surviving tensors are those of a replay.
-/

namespace TensorMachine.Store

variable {σ η α : Type}

open Steps

/-!
### Steps of a machine
-/

lemma onStore_of_ok {call : Steps PoolError (Store η) α} {r r' : Store η} {a : α}
    (h : call r = (.ok a, r')) (s : σ) : onStore call (r, s) = (.ok a, r', s) := by
  rw [onStore, h]
  rfl

lemma onStore_of_error {call : Steps PoolError (Store η) α} {r r' : Store η} {e : PoolError}
    (h : call r = (.error e, r')) (s : σ) : onStore call (r, s) = (.error (.ofPool e), r', s) := by
  rw [onStore, h]
  rfl

lemma onDevice_of_ok {operation : Opcode} {call : σ → Except DeviceError α × σ} {s s' : σ} {a : α}
    (h : call s = (.ok a, s')) (r : Store η) : onDevice operation call (r, s) = (.ok a, r, s') := by
  rw [onDevice, h]
  rfl

lemma onDevice_of_error {operation : Opcode} {call : σ → Except DeviceError α × σ} {s s' : σ}
    {e : DeviceError} (h : call s = (.error e, s')) (r : Store η) :
    onDevice operation call (r, s) = (.error (.device operation e), r, s') := by
  rw [onDevice, h]
  rfl

namespace Follows

variable {r : Store η} {outcome : Except PoolError α × Store η}

lemma exists_granted {a : α} {q : Pool η} (h : Follows r outcome (.ok (a, q))) :
    ∃ r', outcome = (.ok a, r') ∧ Represents r' q := by
  cases h with
  | granted h => exact ⟨_, rfl, h⟩

lemma eq_refused {e : PoolError} (h : Follows r outcome (.error e)) : outcome = (.error e, r) := by
  cases h
  rfl

end Follows

namespace Represents

variable {r : Store η} {p : Pool η} {P : Provider σ η} {m m' : Machine σ η} {i : Instruction}

lemma checkOperand (h : Represents r p) (id : TensorId) :
    r.checkOperand id = (Instruction.operand p id).map fun _ => () := by
  rw [Store.checkOperand, Instruction.operand]
  rcases h.get_cases id with ⟨e, hrefused, hget⟩ | ⟨s, e, hshows, hfound, hget⟩
  · rw [hrefused, hget]
    rfl
  · rw [hfound, hget]
    change (if s.state = .resident .device then _ else _) =
      Except.map _ (if e.residence = .device then _ else _)
    rw [hshows.state]
    by_cases hside : e.residence = .device
    · simp [hside, Entry.state, Except.map]
    · simp [hside, Entry.state, Except.map]

/-- The store checks operands as the pool does. -/
lemma forM_checkOperand (h : Represents r p) (inputs : List TensorId) :
    inputs.forM r.checkOperand = (Instruction.operands p inputs).map fun _ => () := by
  induction inputs with
  | nil => rfl
  | cons id inputs ih =>
    change (r.checkOperand id >>= fun _ => inputs.forM r.checkOperand) = _
    rw [h.checkOperand, ih, Instruction.operands]
    cases Instruction.operand p id with
    | error e => rfl
    | ok handle => cases Instruction.operands p inputs <;> rfl

lemma mapM_fetchHandle (h : Represents r p) {entries : List (Entry η)}
    (hentries : ∀ e ∈ entries, p.find? e.id = some e ∧ e.residence = .device) :
    (entries.map (·.id)).mapM r.fetchHandle = .ok (entries.map (·.handle)) := by
  induction entries with
  | nil => rfl
  | cons e entries ih =>
    obtain ⟨⟨hfind, -⟩, hrest⟩ := List.forall_mem_cons.mp hentries
    obtain ⟨s, hshows⟩ := h.exists_shows hfind
    have hfetch : r.fetchHandle e.id = .ok e.handle := by
      rw [fetchHandle, hshows.get, ← hshows.handle]
      rfl
    rw [List.map_cons, List.mapM_cons, hfetch, ih hrest]
    rfl

lemma ensureFresh_of_fresh (h : Represents r p) {id : TensorId} (hfresh : p.isKnown id = false) :
    ask (·.ensureFresh id) r = (.ok (), r) :=
  ask_of_eq ((h.ensureFresh id).trans (Pool.ensureFresh_eq_ok_iff.mpr hfresh))

/-- What a plan refuses is refused by the steps, which have changed nothing up to there. -/
lemma dispatch_of_plan_error (h : Represents r p) {e : ExecutionError} (hplan : i.plan p = .error e)
    (P : Provider σ η) (s : σ) : dispatch P i (r, s) = (.error e, r, s) := by
  have hknown : ∀ {id : TensorId}, ExecutionError.pool (p.ensureFresh id) = .error e →
      onStore (ask (·.ensureFresh id)) (r, s) = (.error e, r, s) := by
    intro id herror
    rw [onStore, ask, h.ensureFresh, herror]
  cases i with
  | allocate output type residence =>
    rcases Except.bind_eq_error_iff.mp hplan with herror | ⟨_, -, hrest⟩
    · exact bind_of_error (hknown herror) _
    · cases hrest
  | transfer destination input target =>
    rcases h.checkTransition_cases input (.resident destination) with
      ⟨cause, hrefused, hcheck⟩ | ⟨slot, entry, hshows, hfound, hcheck⟩
    · rw [Instruction.plan, hcheck] at hplan
      cases hplan
      cases target <;> exact bind_of_error (onStore_of_error (ask_of_eq hrefused) s) _
    · rw [Instruction.plan, hcheck] at hplan
      rcases Except.bind_eq_error_iff.mp hplan with hfail | ⟨_, -, hrest⟩
      · cases hfail
      · cases target with
        | inPlace => cases hrest
        | renamed output =>
          rcases Except.bind_eq_error_iff.mp hrest with herror | ⟨_, -, hdone⟩
          · exact (bind_of_ok (onStore_of_ok (ask_of_eq hfound) s) _).trans
              (bind_of_error (hknown herror) _)
          · cases hdone
  | deallocate input force =>
    rcases Except.bind_eq_error_iff.mp hplan with herror | ⟨_, -, hrest⟩
    · cases hcheck : p.checkTransition input .freed with
      | ok entry =>
        rw [hcheck] at herror
        cases herror
      | error cause =>
        rw [hcheck] at herror
        cases herror
        have hremove : p.remove input = .error cause := by
          rw [Pool.remove, hcheck]
          rfl
        exact bind_of_error (onStore_of_error (hremove ▸ h.remove input).eq_refused s) _
    · cases hrest
  | compute kernel inputs output =>
    rcases Except.bind_eq_error_iff.mp hplan with harity | ⟨_, harity, hrest⟩
    · exact bind_of_error (by rw [ask, harity]) _
    have hcheck := h.forM_checkOperand inputs
    refine (bind_of_ok (by rw [ask, harity]) _).trans ?_
    rcases Except.bind_eq_error_iff.mp hrest with hoperands | ⟨handles, hoperands, hrest⟩
    · rw [hoperands] at hcheck
      exact bind_of_error (by rw [ask, hcheck]; rfl) _
    · rw [hoperands] at hcheck
      refine (bind_of_ok (by rw [ask, hcheck]; rfl) _).trans ?_
      rcases Except.bind_eq_error_iff.mp hrest with herror | ⟨_, -, hdone⟩
      · exact bind_of_error (hknown herror) _
      · cases hdone

/-- The storage that the device has moved, or not, lies where it lay. -/
lemma moveStorage (h : Represents r p) {e : Entry η} (hfind : p.find? e.id = some e)
    {destination : Residence} {s s' : σ} {answer : Except DeviceError Unit} {handle : η}
    (hcall : P.transfer destination e.handle s = (answer, handle, s')) :
    ∃ r', Store.moveStorage P destination e.id (r, s) =
        (answer.mapError (.device (.transferTo destination)), r', s') ∧
      Represents r' (p.place e.id handle e.residence) := by
  obtain ⟨t, hshows⟩ := h.exists_shows hfind
  refine ⟨_, ?_, h.update hshows (f := fun t => { t with handle }) (fun _ => rfl) (fun _ => rfl)
    (fun _ ht => ht) rfl hshows.state⟩
  rw [Store.moveStorage, bind_of_ok (onStore_of_ok (ask_of_eq hshows.get) s), hshows.handle]
  simp only [hcall]

lemma insert_of_fresh (h : Represents r p) {id : TensorId} (hfresh : p.isKnown id = false)
    (handle : η) (side : Residence) :
    ∃ r', Store.insert id handle (.resident side) r = (.ok (), r') ∧
      Represents r' (p.introduce id handle side) := by
  have hinsert := h.insert id handle (.resident side)
  rw [Pool.insert_of_fresh hfresh] at hinsert
  exact hinsert.exists_granted

lemma checkTransition_of_opposite (h : Represents r p) {e : Entry η}
    (hfind : p.find? e.id = some e) {destination : Residence}
    (hside : e.residence = destination.opposite) :
    ∃ t, r.checkTransition e.id (.resident destination) = .ok t := by
  have hcheck := Pool.checkTransition_of_opposite hfind hside
  rcases h.checkTransition_cases e.id (.resident destination) with
    ⟨cause, -, hrefused⟩ | ⟨t, -, -, hfound, -⟩
  · rw [hcheck] at hrefused
    cases hrefused
  · exact ⟨t, hfound⟩

lemma remove_of_find? (h : Represents r p) {e : Entry η} (hfind : p.find? e.id = some e) :
    ∃ r', Store.remove e.id r = (.ok e.handle, r') ∧ Represents r' (p.retire e.id .freed) := by
  have hcheck := Pool.checkTransition_eq_ok_iff.mpr ⟨hfind, (rfl : e.state.canBecome .freed = true)⟩
  have hremove := h.remove e.id
  rw [Pool.remove, hcheck] at hremove
  exact hremove.exists_granted

/-- A computation that was planned reaches the device. -/
lemma dispatch_compute (h : Represents r p) (P : Provider σ η) {kernel : Kernel}
    {entries : List (Entry η)} {output : TensorId} {s : σ} (harity : entries.length = kernel.arity)
    (hentries : ∀ e ∈ entries, p.find? e.id = some e ∧ e.residence = .device)
    (hfresh : p.isKnown output = false) :
    dispatch P (.compute kernel (entries.map (·.id)) output) (r, s) =
      (onDevice .compute (P.compute kernel (entries.map (·.handle))) >>= fun handle =>
        onStore (Store.insert output handle (.resident .device))) (r, s) := by
  have hcount : Instruction.checkArity kernel (entries.map (·.id)).length = .ok () := by
    rwa [Instruction.checkArity_eq_ok_iff, List.length_map]
  have hcheck : (entries.map (·.id)).forM r.checkOperand = .ok () := by
    rw [h.forM_checkOperand, Instruction.operands_of_live hentries]
    rfl
  rw [dispatch, bind_of_ok (by rw [ask, hcount]), bind_of_ok (by rw [ask, hcheck]),
    bind_of_ok (onStore_of_ok (h.ensureFresh_of_fresh hfresh) _),
    bind_of_ok (by rw [ask, h.mapM_fetchHandle hentries])]

/-- A step that goes through does so on the store. -/
lemma dispatch_of_passes (h : Represents r m.pool) (hpasses : m.Passes P i m') :
    ∃ r', dispatch P i (r, m.device) = (.ok (), r', m'.device) ∧ Represents r' m'.pool := by
  cases hpasses with
  | allocate hfresh hcall =>
    obtain ⟨r', hinsert, hr'⟩ := h.insert_of_fresh hfresh _ _
    refine ⟨r', ?_, hr'⟩
    rw [dispatch, bind_of_ok (onStore_of_ok (h.ensureFresh_of_fresh hfresh) _),
      bind_of_ok (onDevice_of_ok hcall r)]
    exact onStore_of_ok hinsert _
  | @transfer destination entry target handle s hfind hside hfresh hcall =>
    obtain ⟨t, hcheck⟩ := h.checkTransition_of_opposite hfind hside
    obtain ⟨moved, hmove, hmoved⟩ := h.moveStorage hfind hcall
    cases target with
    | inPlace =>
      have htransition := hmoved.transition entry.id (.resident destination)
      rw [Pool.transition_placed hfind hside handle] at htransition
      obtain ⟨r', hsettle, hr'⟩ := htransition.exists_granted
      refine ⟨r', ?_, hr'⟩
      rw [dispatch, bind_of_ok (onStore_of_ok (ask_of_eq hcheck) _), bind_of_ok hmove,
        bind_of_ok (onStore_of_ok hsettle _)]
      rfl
    | renamed output =>
      have hnew := hfresh output (by simp [Target.ids])
      have hconsume := hmoved.consume entry.id output
      rw [Pool.consume_placed hfind handle output] at hconsume
      obtain ⟨left, hleave, hleft⟩ := hconsume.exists_granted
      obtain ⟨r', hinsert, hr'⟩ :=
        hleft.insert_of_fresh (Pool.isKnown_retire_of_fresh hfind hnew _) handle destination
      refine ⟨r', ?_, hr'⟩
      rw [dispatch, bind_of_ok (onStore_of_ok (ask_of_eq hcheck) _),
        bind_of_ok (onStore_of_ok (h.ensureFresh_of_fresh hnew) _), bind_of_ok hmove,
        bind_of_ok (onStore_of_ok hleave _)]
      exact onStore_of_ok hinsert _
  | deallocate hfind hcall =>
    obtain ⟨r', hremove, hr'⟩ := h.remove_of_find? hfind
    refine ⟨r', ?_, hr'⟩
    rw [dispatch, bind_of_ok (onStore_of_ok hremove _)]
    exact onDevice_of_ok hcall r'
  | compute harity hentries hfresh hcall =>
    obtain ⟨r', hinsert, hr'⟩ := h.insert_of_fresh hfresh _ .device
    refine ⟨r', ?_, hr'⟩
    rw [h.dispatch_compute P harity hentries hfresh, bind_of_ok (onDevice_of_ok hcall r)]
    exact onStore_of_ok hinsert _

/-- A step that stops does so on the store, with the same error. -/
lemma dispatch_of_stops (h : Represents r m.pool) {e : ExecutionError} (hstops : m.Stops P i e m') :
    ∃ r', dispatch P i (r, m.device) = (.error e, r', m'.device) ∧ Represents r' m'.pool := by
  cases hstops with
  | plan hplan => exact ⟨r, h.dispatch_of_plan_error hplan P m.device, h⟩
  | allocate hfresh hcall =>
    refine ⟨r, ?_, h⟩
    rw [dispatch, bind_of_ok (onStore_of_ok (h.ensureFresh_of_fresh hfresh) _)]
    exact bind_of_error (onDevice_of_error hcall r) _
  | @transfer destination entry target cause handle s hfind hside hfresh hcall =>
    obtain ⟨t, hcheck⟩ := h.checkTransition_of_opposite hfind hside
    obtain ⟨r', hmove, hr'⟩ := h.moveStorage hfind hcall
    refine ⟨r', ?_, hr'⟩
    cases target with
    | inPlace =>
      rw [dispatch, bind_of_ok (onStore_of_ok (ask_of_eq hcheck) _)]
      exact bind_of_error hmove _
    | renamed output =>
      have hnew := hfresh output (by simp [Target.ids])
      rw [dispatch, bind_of_ok (onStore_of_ok (ask_of_eq hcheck) _),
        bind_of_ok (onStore_of_ok (h.ensureFresh_of_fresh hnew) _)]
      exact bind_of_error hmove _
  | deallocate hfind hcall =>
    obtain ⟨r', hremove, hr'⟩ := h.remove_of_find? hfind
    refine ⟨r', ?_, hr'⟩
    rw [dispatch, bind_of_ok (onStore_of_ok hremove _)]
    exact onDevice_of_error hcall r'
  | compute harity hentries hfresh hcall =>
    refine ⟨r, ?_, h⟩
    rw [h.dispatch_compute P harity hentries hfresh]
    exact bind_of_error (onDevice_of_error hcall r) _

/-- Every step of a machine is one on the store. -/
theorem dispatch (h : Represents r m.pool) (P : Provider σ η) (i : Instruction) :
    ∃ r', Store.dispatch P i (r, m.device) = ((m.step P i).1, r', (m.step P i).2.device) ∧
      Represents r' (m.step P i).2.pool := by
  rcases Machine.step_cases P i m with ⟨m', hstep, hpasses⟩ | ⟨e, m', hstep, hstops⟩
  · rw [hstep]
    exact h.dispatch_of_passes hpasses
  · rw [hstep]
    exact h.dispatch_of_stops hstops

/-- A store keeps up with the machine wherever a list of instructions stops. -/
theorem advance (h : Represents r m.pool) (P : Provider σ η) (instructions : List Instruction)
    (n : Nat) :
    let progress := Machine.advance P instructions n m
    ∃ r', Store.advance P instructions n (r, m.device) =
        ⟨progress.executed, progress.stopped, r', progress.machine.device⟩ ∧
      Represents r' progress.machine.pool := by
  induction instructions generalizing n r m with
  | nil => exact ⟨r, rfl, h⟩
  | cons i rest ih =>
    obtain ⟨r', hdispatch, hr'⟩ := h.dispatch P i
    rw [Machine.advance, Store.advance]
    rcases hstep : m.step P i with ⟨_ | _, m'⟩
    · rw [hstep] at hdispatch hr'
      rw [hdispatch]
      exact ⟨r', rfl, hr'⟩
    · rw [hstep] at hdispatch hr'
      rw [hdispatch]
      exact ih hr' (n + 1)

/-!
### Whole runs
-/

lemma bindInputs (h : Represents r p) (inputs : List (TensorId × η)) :
    ∃ r', Store.bindInputs inputs r = ((Pool.bindInputs inputs p).1, r') ∧
      Represents r' (Pool.bindInputs inputs p).2 := by
  induction inputs generalizing r p with
  | nil => exact ⟨r, rfl, h⟩
  | cons input inputs ih =>
    obtain ⟨id, handle⟩ := input
    have hinsert := h.insert id handle (.resident .host)
    rw [Pool.bindInputs, Store.bindInputs]
    cases hanswer : p.insert id handle (.resident .host) with
    | ok q =>
      rw [hanswer] at hinsert
      obtain ⟨r', hcall, hr'⟩ := hinsert.exists_granted
      rw [hcall]
      exact ih hr'
    | error e =>
      rw [hanswer] at hinsert
      rw [hinsert.eq_refused]
      exact ⟨r, rfl, h⟩

lemma takeOutputs (h : Represents r p) (outputs : List TensorId) :
    ∃ r', Store.takeOutputs outputs r = ((Pool.takeOutputs outputs p).1, r') ∧
      Represents r' (Pool.takeOutputs outputs p).2 := by
  induction outputs generalizing r p with
  | nil => exact ⟨r, rfl, h⟩
  | cons id outputs ih =>
    have hremove := h.remove id
    rw [Pool.takeOutputs, Store.takeOutputs]
    cases hanswer : p.remove id with
    | ok removed =>
      obtain ⟨handle, q⟩ := removed
      rw [hanswer] at hremove
      obtain ⟨r', hcall, hr'⟩ := hremove.exists_granted
      obtain ⟨left, hrest, hleft⟩ := ih hr'
      rw [hcall]
      exact ⟨left, by simp only [hrest], hleft⟩
    | error e =>
      rw [hanswer] at hremove
      rw [hremove.eq_refused]
      exact ih h

lemma handOver {progress : TensorMachine.Progress σ η} (h : Represents r progress.machine.pool)
    (cfg : RunConfig) (outputs : List TensorId) :
    let stored : Store.Progress σ η :=
      ⟨progress.executed, progress.stopped, r, progress.machine.device⟩
    stored.status outputs = progress.status outputs ∧
      ∃ r', stored.handOver cfg outputs = ((progress.handOver cfg outputs).1, r') ∧
        Represents r' (progress.handOver cfg outputs).2 := by
  intro stored
  have hstatus : stored.status outputs = progress.status outputs := by
    have hmissing : (outputs.find? fun id => !r.contains id) =
        Program.missingOutput? outputs progress.machine.pool := by
      simp only [h.contains, Program.missingOutput?]
    unfold Progress.status TensorMachine.Progress.status
    generalize Program.missingOutput? outputs progress.machine.pool = missing at hmissing ⊢
    subst hmissing
    rfl
  refine ⟨hstatus, ?_⟩
  rw [Progress.handOver, TensorMachine.Progress.handOver, hstatus]
  cases progress.status outputs with
  | failed fault => exact ⟨r, rfl, h⟩
  | completed =>
    by_cases hretain : cfg.retainOutputs = true
    · simp only [hretain, if_true]
      exact h.takeOutputs outputs
    · simp only [hretain]
      exact ⟨r, rfl, h⟩

lemma execute (h : Represents r p) (P : Provider σ η) (cfg : RunConfig) (program : Program)
    (s : σ) : Store.execute P cfg program r s = program.execute P cfg p s := by
  obtain ⟨r', hadvance, hr'⟩ := h.advance (m := ⟨p, s⟩) P program.instructions 0
  obtain ⟨hstatus, left, hhanded, hleft⟩ := hr'.handOver cfg program.outputs
  simp only [Store.execute, Program.execute, hadvance, hstatus, hhanded, hr'.snapshot,
    hleft.drain.1]

end Represents

/-- A run on a store comes to the report of the run on a machine, and leaves the same device. -/
theorem run_eq (P : Provider σ η) (cfg : RunConfig) (p : Program) (inputs : List (TensorId × η))
    (s : σ) : run P cfg p inputs s = p.run P cfg inputs s := by
  rw [run, Program.run]
  cases p.accept cfg (inputs.map Prod.fst) with
  | error fault => rfl
  | ok =>
    obtain ⟨r, hbound, hr⟩ := represents_empty.bindInputs inputs
    rw [hbound]
    cases hpool : Pool.bindInputs inputs .empty with
    | mk answer pool =>
      rw [hpool] at hr
      cases answer with
      | error e => simp only [hr.snapshot, hr.drain.1]
      | ok => exact hr.execute P cfg p s

/-- The surviving tensors of a run are listed from a store, wherever the run has stopped. -/
lemma exists_sound_store (P : Provider σ η) {cfg : RunConfig} {p : Program}
    {inputs : List (TensorId × η)} (haccept : p.accept cfg (inputs.map Prod.fst) = .ok ()) (s : σ) :
    ∃ r : Store η, r.Sound ∧ (run P cfg p inputs s).1.surviving = r.snapshot := by
  obtain ⟨r, hbound, hr⟩ := represents_empty.bindInputs inputs
  rw [run, haccept, hbound]
  cases (Pool.bindInputs inputs .empty).1 with
  | error e => exact ⟨r, hr.sound, rfl⟩
  | ok =>
    obtain ⟨r', hadvance, hr'⟩ := hr.advance (m := ⟨_, s⟩) P p.instructions 0
    refine ⟨r', hr'.sound, ?_⟩
    simp only [execute, hadvance]

/-- The surviving tensors of a run that accepts its inputs are those of a replay of the instructions
that were executed, without the identifier of a refused release. They have different identifiers,
and none of their slots is in the state of a freed one. -/
theorem run_surviving_eq_replay (P : Provider σ η) (cfg : RunConfig) (p : Program)
    (inputs : List (TensorId × η)) (s : σ)
    (haccept : p.accept cfg (inputs.map Prod.fst) = .ok ()) :
    (run P cfg p inputs s).1.surviving =
        ((Program.replay (inputs.map Prod.fst)
          (p.instructions.take (run P cfg p inputs s).1.executed)).filter
            fun t => (run P cfg p inputs s).1.status.forfeited? p.instructions ≠ some t.1) ∧
      (run P cfg p inputs s).1.survivingIds.Nodup ∧
      ∀ t ∈ (run P cfg p inputs s).1.surviving, t.2 ≠ .freed := by
  obtain ⟨r, hsound, hsurviving⟩ := exists_sound_store P haccept s
  refine ⟨?_, ?_, fun t ht => ?_⟩
  · rw [run_eq]
    exact Program.surviving_run P cfg p inputs s haccept
  · rw [Report.survivingIds, hsurviving, map_fst_snapshot]
    exact hsound.nodup_ids
  · rw [hsurviving] at ht
    obtain ⟨slot, hslot, rfl⟩ := List.mem_map.mp ht
    exact hsound.state_ne_freed (hsound.mem_ordered.mp hslot)

/-- A host device that fails the release of a tensor that has gone on under another identifier. -/
theorem run_surviving_eq_replay_refused :
    let p : Program := ⟨[⟨1, ⟨.u8, [2]⟩⟩], [],
      [.allocate 2 ⟨.u8, [1]⟩ .host, .transfer .device 1 (.renamed 3), .deallocate 3 false]⟩
    let t : HostTensor := ⟨⟨1, ⟨.u8, [2]⟩, .host⟩, [7, 9]⟩
    let d := ((HostDevice.new 64 64).hostTensor ⟨.u8, [2]⟩ [7, 9]).2.failNext .release
    let report := (run HostDevice.provider {} p [(1, t)] d).1
    p.accept {} [1] = .ok () ∧ report.executed = 2 ∧
      Program.replay [1] (p.instructions.take 2) =
        [(2, .resident .host), (3, .resident .device)] ∧
      report.surviving = [(2, .resident .host)] := by
  intro p t d report
  have hreport : report = (p.run HostDevice.provider {} [(1, t)] d).1 :=
    congrArg Prod.fst (run_eq HostDevice.provider {} p [(1, t)] d)
  have haccept : p.accept {} [1] = .ok () := by decide
  have hexecuted : report.executed = 2 := by
    rw [hreport]
    decide
  have hreplay : Program.replay [1] (p.instructions.take 2) =
      [(2, .resident .host), (3, .resident .device)] := by decide
  have hforfeited : report.status.forfeited? p.instructions = some 3 := by
    rw [hreport]
    decide
  obtain ⟨hsurviving, -, -⟩ := run_surviving_eq_replay HostDevice.provider {} p [(1, t)] d haccept
  refine ⟨haccept, hexecuted, hreplay, hsurviving.trans ?_⟩
  change (Program.replay [1] (p.instructions.take report.executed)).filter
    (fun t => report.status.forfeited? p.instructions ≠ some t.1) = _
  rw [hexecuted, hreplay, hforfeited]
  decide

end TensorMachine.Store
