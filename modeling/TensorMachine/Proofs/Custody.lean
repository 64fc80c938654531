import TensorMachine.Proofs.Bindings
import TensorMachine.Proofs.HostCalls
import TensorMachine.Proofs.Recording
import TensorMachine.Proofs.Runs

/-!
# The custody of handles

A run has the custody of the handles that are supplied to it and of those that the device makes for
it. All it assumes of a device is that a new handle has a new identity, and that a handle keeps its
identity in a transfer, be it granted or not. Then each handle in custody is passed to the device
for its release or is handed back, once and not both, however the run ends.
-/

namespace TensorMachine

variable {σ η ι : Type}

/-- A device makes handles of identities that were not used, and keeps the identities of handles;
an identity that was used remains so. -/
structure Provider.Identifies (P : Provider σ η) (identity : η → ι) (used : σ → ι → Prop) :
    Prop where
  allocate_fresh : ∀ type residence s handle s', P.allocate type residence s = (.ok handle, s') →
    ¬used s (identity handle) ∧ used s' (identity handle)
  compute_fresh : ∀ kernel operands s handle s', P.compute kernel operands s = (.ok handle, s') →
    ¬used s (identity handle) ∧ used s' (identity handle)
  transfer_identity : ∀ destination handle s,
    identity (P.transfer destination handle s).2.1 = identity handle
  allocate_used : ∀ type residence s n, used s n → used (P.allocate type residence s).2 n
  release_used : ∀ handle force s n, used s n → used (P.release handle force s).2 n
  transfer_used : ∀ destination handle s n, used s n → used (P.transfer destination handle s).2.2 n
  compute_used : ∀ kernel operands s n, used s n → used (P.compute kernel operands s).2 n

/-- The host device identifies handles by their serials. -/
theorem HostDevice.provider_identifies :
    HostDevice.provider.Identifies (·.serial) fun d n => n < d.nextSerial where
  allocate_fresh type residence d t d' hcall := by
    rcases d.allocate_cases type residence none with
      ⟨e, _, hrefused, -⟩ | ⟨x, _, hissued, hlabel, -, hnext, -⟩
    · cases hcall.symm.trans hrefused
    · cases hcall.symm.trans hissued
      have hserial : t.serial = d.nextSerial := congrArg TensorLabel.serial hlabel
      omega
  compute_fresh kernel operands d t d' hcall := by
    rcases d.compute_cases kernel operands with
      ⟨e, _, hrefused, -⟩ | ⟨x, _, hissued, hserial, -, -, -, hnext, -⟩
    · cases hcall.symm.trans hrefused
    · cases hcall.symm.trans hissued
      omega
  transfer_identity destination t d := by
    change (d.transfer destination t).2.1.serial = t.serial
    rcases d.transfer_cases destination t with ⟨e, d', hcall, -⟩ | ⟨d', hcall, -⟩ <;> rw [hcall]
  allocate_used type residence d n hn := by
    change n < (d.allocate type residence none).2.nextSerial
    rcases d.allocate_cases type residence none with
      ⟨e, d', hcall, hsame, -⟩ | ⟨t, d', hcall, -, -, hnext, -⟩
    · rwa [hcall, hsame.nextSerial]
    · rw [hcall, hnext]
      exact Nat.lt_succ_of_lt hn
  release_used t force d n hn := by
    change n < (d.release t force).2.nextSerial
    rcases d.release_cases t force with ⟨-, hcall⟩ | ⟨-, answer, d', hcall, -, hnext, -⟩
    · rwa [hcall]
    · rwa [hcall, hnext]
  transfer_used destination t d n hn := by
    change n < (d.transfer destination t).2.2.nextSerial
    rcases d.transfer_cases destination t with ⟨e, d', hcall, hsame, -⟩ | ⟨d', hcall, hsame⟩ <;>
      rwa [hcall, hsame.nextSerial]
  compute_used kernel operands d n hn := by
    change n < (d.compute kernel operands).2.nextSerial
    rcases d.compute_cases kernel operands with
      ⟨e, d', hcall, hsame, -⟩ | ⟨t, d', hcall, -, -, -, -, hnext, -⟩
    · rwa [hcall, hsame.nextSerial]
    · rw [hcall, hnext]
      exact Nat.lt_succ_of_lt hn

/-!
### Instructions
-/

/-- The balance of custody in the course of a run: what was supplied and made has been passed for
its release or is in the pool, all of it under different identities. -/
structure Machine.Balanced (identity : η → ι) (used : σ → ι → Prop) (supplied : List ι)
    (m : Machine (σ × List (Exchange η)) η) : Prop where
  nodup_ids : m.pool.ids.Nodup
  nodup : (supplied ++ (Exchange.made m.device.2).map identity).Nodup
  used : ∀ n ∈ supplied ++ (Exchange.made m.device.2).map identity, used m.device.1 n
  balance : ((Exchange.released m.device.2).map identity ++ m.pool.identities identity).Perm
    (supplied ++ (Exchange.made m.device.2).map identity)

namespace Machine.Balanced

variable {P : Provider σ η} {identity : η → ι} {used : σ → ι → Prop} {supplied : List ι}
  {m : Machine (σ × List (Exchange η)) η}

lemma kept (h : Balanced identity used supplied m) {pool : Pool η} {s : σ} {call : Exchange η}
    (hmade : call.made? = none) (hreleased : call.released? = none) (hids : pool.ids.Nodup)
    (hpool : (pool.identities identity).Perm (m.pool.identities identity))
    (hused : ∀ n, used m.device.1 n → used s n) :
    Balanced identity used supplied ⟨pool, s, m.device.2 ++ [call]⟩ := by
  have hmadeAll : Exchange.made (m.device.2 ++ [call]) = Exchange.made m.device.2 := by
    simp [Exchange.made, hmade]
  have hreleasedAll : Exchange.released (m.device.2 ++ [call]) = Exchange.released m.device.2 := by
    simp [Exchange.released, hreleased]
  refine ⟨hids, ?_, ?_, ?_⟩
  · rw [hmadeAll]
    exact h.nodup
  · rw [hmadeAll]
    exact fun n hn => hused n (h.used n hn)
  · rw [hmadeAll, hreleasedAll]
    exact (hpool.append_left _).trans h.balance

lemma made (h : Balanced identity used supplied m) {s : σ} {call : Exchange η} {handle : η}
    (hmade : call.made? = some handle) (hreleased : call.released? = none) {output : TensorId}
    (hfresh : m.pool.isKnown output = false) (side : Residence)
    (hnew : ¬used m.device.1 (identity handle) ∧ used s (identity handle))
    (hused : ∀ n, used m.device.1 n → used s n) :
    Balanced identity used supplied
      ⟨m.pool.introduce output handle side, s, m.device.2 ++ [call]⟩ := by
  have hmadeAll : supplied ++ (Exchange.made (m.device.2 ++ [call])).map identity =
      (supplied ++ (Exchange.made m.device.2).map identity).concat (identity handle) := by
    simp [Exchange.made, hmade]
  have hreleasedAll : Exchange.released (m.device.2 ++ [call]) = Exchange.released m.device.2 := by
    simp [Exchange.released, hreleased]
  have hfind := Pool.find?_of_fresh hfresh
  refine ⟨Pool.nodup_ids_introduce h.nodup_ids hfind handle side, ?_, ?_, ?_⟩
  · rw [hmadeAll]
    exact List.Nodup.concat (fun hmem => hnew.1 (h.used _ hmem)) h.nodup
  · rw [hmadeAll]
    intro n hn
    rw [List.concat_eq_append] at hn
    rcases List.mem_append.mp hn with hn | hn
    · exact hused n (h.used n hn)
    · rw [List.mem_singleton.mp hn]
      exact hnew.2
  · rw [hmadeAll, hreleasedAll, Pool.identities_introduce, ← List.append_assoc,
      List.concat_eq_append]
    exact h.balance.append_right _

/-- A call that took back the handle of a live tensor, granted or not. -/
lemma released (h : Balanced identity used supplied m) {s : σ} {call : Exchange η}
    {entry : Entry η} (hmade : call.made? = none) (hreleased : call.released? = some entry.handle)
    (hfind : m.pool.find? entry.id = some entry) (fate : Fate)
    (hused : ∀ n, used m.device.1 n → used s n) :
    Balanced identity used supplied
      ⟨m.pool.retire entry.id fate, s, m.device.2 ++ [call]⟩ := by
  have hmadeAll : Exchange.made (m.device.2 ++ [call]) = Exchange.made m.device.2 := by
    simp [Exchange.made, hmade]
  have hreleasedAll : (Exchange.released (m.device.2 ++ [call])).map identity =
      (Exchange.released m.device.2).map identity ++ [identity entry.handle] := by
    simp [Exchange.released, hreleased]
  refine ⟨Pool.nodup_ids_retire h.nodup_ids entry.id fate, ?_, ?_, ?_⟩
  · rw [hmadeAll]
    exact h.nodup
  · rw [hmadeAll]
    exact fun n hn => hused n (h.used n hn)
  · have hretire := Pool.identities_retire identity h.nodup_ids hfind fate
    rw [hmadeAll, hreleasedAll, List.append_assoc]
    exact (hretire.symm.append_left _).trans h.balance

/-- Custody is balanced behind every step, whether the device granted its call or not. -/
theorem step (hP : P.Identifies identity used) (h : Balanced identity used supplied m)
    (i : Instruction) : Balanced identity used supplied (m.step P.recorded i).2 := by
  cases hplan : i.plan m.pool with
  | error e =>
    rw [step_of_plan_error P.recorded hplan]
    exact h
  | ok action =>
    have hlegal := Instruction.legal_of_plan hplan
    rw [step_of_plan_ok P.recorded hplan]
    cases action with
    | allocate output type residence =>
      have hused := hP.allocate_used type residence m.device.1
      rcases hcall : P.allocate type residence m.device.1 with ⟨e | handle, s⟩ <;>
        rw [hcall] at hused <;>
        simp only [Action.outcome, Action.carryOut, Provider.recorded, hcall]
      · exact h.kept rfl rfl h.nodup_ids (.refl _) hused
      · exact h.made rfl rfl hlegal residence (hP.allocate_fresh _ _ _ _ _ hcall) hused
    | transfer destination entry target =>
      obtain ⟨hfind, -, hfresh⟩ := hlegal
      have hused := hP.transfer_used destination entry.handle m.device.1
      have hsame := hP.transfer_identity destination entry.handle m.device.1
      rcases hcall : P.transfer destination entry.handle m.device.1 with ⟨e | _, handle, s⟩ <;>
        rw [hcall] at hused hsame <;>
        simp only [Action.outcome, Action.carryOut, Provider.recorded, hcall]
      · refine h.kept rfl rfl ?_ ?_ hused
        · rw [Pool.ids_place]
          exact h.nodup_ids
        · rw [Pool.identities_place identity h.nodup_ids hfind hsame]
      · exact h.kept rfl rfl (Action.nodup_ids_move h.nodup_ids destination entry.id handle hfresh)
          (Action.identities_move identity h.nodup_ids hfind hsame destination target) hused
    | release entry force =>
      have hused := hP.release_used entry.handle force m.device.1
      rcases hcall : P.release entry.handle force m.device.1 with ⟨e | _, s⟩ <;>
        rw [hcall] at hused <;>
        simp only [Action.outcome, Action.carryOut, Provider.recorded, hcall]
      · exact h.released rfl rfl hlegal .freed hused
      · exact h.released rfl rfl hlegal .freed hused
    | compute kernel operands output =>
      have hused := hP.compute_used kernel operands m.device.1
      rcases hcall : P.compute kernel operands m.device.1 with ⟨e | handle, s⟩ <;>
        rw [hcall] at hused <;>
        simp only [Action.outcome, Action.carryOut, Provider.recorded, hcall]
      · exact h.kept rfl rfl h.nodup_ids (.refl _) hused
      · exact h.made rfl rfl hlegal.1 .device (hP.compute_fresh _ _ _ _ _ hcall) hused

/-- Custody is balanced behind every run of instructions. -/
theorem advance (hP : P.Identifies identity used) (instructions : List Instruction) (n : Nat)
    (h : Balanced identity used supplied m) :
    Balanced identity used supplied
      (Machine.advance P.recorded instructions n m).machine :=
  advance_keeps (fun i _ h => h.step hP i) instructions n h

end Machine.Balanced

/-!
### Whole runs
-/

/-- Each handle that was supplied to a run or made in it was passed to the device for its release or
handed back, once and not both, and no other handle was. -/
def Report.Settles (identity : η → ι) (supplied : List η) (calls : List (Exchange η))
    (report : Report η) : Prop :=
  ((supplied ++ Exchange.made calls).map identity).Nodup ∧
    ((Exchange.released calls ++ report.outputs.map Prod.snd).map identity).Perm
      ((supplied ++ Exchange.made calls).map identity)

lemma calls_releaseAll (P : Provider σ η) (force : Bool) (handles : List (TensorId × η))
    (s : σ × List (Exchange η)) :
    Exchange.made (releaseAll P.recorded force handles s).device.2 = Exchange.made s.2 ∧
      Exchange.released (releaseAll P.recorded force handles s).device.2 =
        Exchange.released s.2 ++ handles.map Prod.snd := by
  induction handles generalizing s with
  | nil => simp [releaseAll]
  | cons input handles ih =>
    obtain ⟨id, handle⟩ := input
    have hcall : P.recorded.release handle force s =
        ((P.release handle force s.1).1, (P.release handle force s.1).2,
          s.2 ++ [.release handle force (P.release handle force s.1).1]) := rfl
    generalize (P.release handle force s.1).1 = answer at hcall
    generalize (P.release handle force s.1).2 = s' at hcall
    obtain ⟨hmade, hreleased⟩ := ih (s', s.2 ++ [.release handle force answer])
    rw [Exchange.made_append] at hmade
    rw [Exchange.released_append] at hreleased
    rw [releaseAll, hcall]
    cases answer with
    | error e => exact ⟨hmade.trans (List.append_nil _), hreleased.trans (List.append_assoc _ _ _)⟩
    | ok _ => exact ⟨hmade.trans (List.append_nil _), hreleased.trans (List.append_assoc _ _ _)⟩

/-- What is handed over and what stays in the pool make up the pool. -/
lemma Progress.handOver_perm (identity : η → ι) (progress : Progress σ η) (cfg : RunConfig)
    (outputs : List TensorId) (hids : progress.machine.pool.ids.Nodup) :
    ((progress.handOver cfg outputs).1.map (fun output => identity output.2) ++
      (progress.handOver cfg outputs).2.identities identity).Perm
        (progress.machine.pool.identities identity) := by
  unfold handOver
  split
  · split
    · exact Pool.takeOutputs_perm identity outputs hids
    · exact .refl _
  · exact .refl _

lemma Progress.handOver_outputs (progress : Progress σ η) (cfg : RunConfig)
    (outputs : List TensorId) (h : (progress.handOver cfg outputs).1 ≠ []) :
    progress.status outputs = .completed ∧ cfg.retainOutputs = true := by
  unfold handOver at h
  split at h
  · next hstatus =>
    split at h
    · next hretain => exact ⟨hstatus, hretain⟩
    · exact absurd rfl h
  · exact absurd rfl h

lemma reject_settles (P : Provider σ η) (cfg : RunConfig) (identity : η → ι) (fault : Fault)
    (surviving : List (TensorId × State)) {inputs : List (TensorId × η)} (s : σ)
    (hdistinct : (inputs.map fun input => identity input.2).Nodup) :
    (reject P.recorded cfg fault surviving inputs (s, [])).1.Settles identity
      (inputs.map Prod.snd) (reject P.recorded cfg fault surviving inputs (s, [])).2.2 := by
  obtain ⟨hmade, hreleased⟩ := calls_releaseAll P cfg.forceTeardown inputs (s, [])
  simp only [Report.Settles, reject, hmade, hreleased]
  simpa [Exchange.made, Exchange.released, Function.comp_def] using hdistinct

namespace Program

variable {P : Provider σ η} {identity : η → ι} {used : σ → ι → Prop}

lemma execute_settles (hP : P.Identifies identity used) (cfg : RunConfig) (p : Program)
    {inputs : List (TensorId × η)} (s : σ) (hids : (inputs.map Prod.fst).Nodup)
    (hdistinct : (inputs.map fun input => identity input.2).Nodup)
    (hused : ∀ input ∈ inputs, used s (identity input.2)) :
    (p.execute P.recorded cfg (.ofInputs inputs) (s, [])).1.Settles identity
      (inputs.map Prod.snd) (p.execute P.recorded cfg (.ofInputs inputs) (s, [])).2.2 := by
  have hstart : Machine.Balanced identity used (inputs.map fun input => identity input.2)
      ⟨.ofInputs inputs, s, []⟩ := by
    refine ⟨?_, ?_, ?_, ?_⟩
    · rwa [Pool.ids_ofInputs]
    · simpa [Exchange.made] using hdistinct
    · intro n hn
      simp only [Exchange.made, List.filterMap_nil, List.map_nil, List.append_nil] at hn
      obtain ⟨input, hinput, rfl⟩ := List.mem_map.mp hn
      exact hused input hinput
    · simp [Exchange.made, Exchange.released, Pool.identities, Pool.ofInputs, Function.comp_def]
  have hend := hstart.advance hP p.instructions 0
  simp only [execute]
  generalize Machine.advance P.recorded p.instructions 0 ⟨.ofInputs inputs, s, []⟩ = progress
    at hend ⊢
  have hover := progress.handOver_perm identity cfg p.outputs hend.nodup_ids
  generalize progress.handOver cfg p.outputs = handed at hover ⊢
  obtain ⟨outputs, pool⟩ := handed
  obtain ⟨hmade, hreleased⟩ :=
    calls_releaseAll P cfg.forceTeardown pool.drain.1 progress.machine.device
  have howned : (inputs.map Prod.snd ++ Exchange.made progress.machine.device.2).map identity =
      inputs.map (fun input => identity input.2) ++
        (Exchange.made progress.machine.device.2).map identity := by
    simp [Function.comp_def]
  have hgone : (Exchange.released progress.machine.device.2 ++ pool.drain.1.map Prod.snd ++
      outputs.map Prod.snd).map identity =
      (Exchange.released progress.machine.device.2).map identity ++
        (pool.identities identity ++ outputs.map fun output => identity output.2) := by
    rw [← Pool.map_drain]
    simp [Function.comp_def]
  simp only [Report.Settles, hmade, hreleased, howned, hgone]
  refine ⟨hend.nodup, ?_⟩
  exact ((List.perm_append_comm.trans hover).append_left _).trans hend.balance

lemma run_settles (hP : P.Identifies identity used) (cfg : RunConfig) (p : Program)
    {inputs : List (TensorId × η)} (s : σ)
    (hdistinct : (inputs.map fun input => identity input.2).Nodup)
    (hused : ∀ input ∈ inputs, used s (identity input.2)) :
    (p.run P.recorded cfg inputs (s, [])).1.Settles identity (inputs.map Prod.snd)
      (p.run P.recorded cfg inputs (s, [])).2.2 := by
  unfold run
  cases haccept : p.accept cfg (inputs.map Prod.fst) with
  | error fault => exact reject_settles P cfg identity fault [] s hdistinct
  | ok _ =>
    have hids := (suppliedBy_of_accept haccept).1
    rw [Pool.bindInputs_of_nodup inputs hids]
    exact execute_settles hP cfg p s hids hdistinct hused

lemma runBytes_settles (hP : P.Identifies identity used) (cfg : RunConfig) (bytes : Bytes)
    {inputs : List (TensorId × η)} (s : σ)
    (hdistinct : (inputs.map fun input => identity input.2).Nodup)
    (hused : ∀ input ∈ inputs, used s (identity input.2)) :
    (runBytes P.recorded cfg bytes inputs (s, [])).1.Settles identity (inputs.map Prod.snd)
      (runBytes P.recorded cfg bytes inputs (s, [])).2.2 := by
  unfold runBytes
  cases decode bytes with
  | error e => exact reject_settles P cfg identity _ [] s hdistinct
  | ok p => exact run_settles hP cfg p s hdistinct hused

lemma run_outputs (P : Provider σ η) (cfg : RunConfig) (p : Program) (inputs : List (TensorId × η))
    (s : σ) (h : (p.run P cfg inputs s).1.outputs ≠ []) :
    (p.run P cfg inputs s).1.status = .completed ∧ cfg.retainOutputs = true := by
  revert h
  unfold run
  cases p.accept cfg (inputs.map Prod.fst) with
  | error fault => exact fun h => absurd rfl h
  | ok _ =>
    rcases Pool.bindInputs inputs .empty with ⟨e | _, pool⟩
    · exact fun h => absurd rfl h
    · exact Progress.handOver_outputs _ cfg p.outputs

lemma runBytes_outputs (P : Provider σ η) (cfg : RunConfig) (bytes : Bytes)
    (inputs : List (TensorId × η)) (s : σ) (h : (runBytes P cfg bytes inputs s).1.outputs ≠ []) :
    (runBytes P cfg bytes inputs s).1.status = .completed ∧ cfg.retainOutputs = true := by
  revert h
  unfold runBytes
  cases decode bytes with
  | error e => exact fun h => absurd rfl h
  | ok p => exact p.run_outputs P cfg inputs s

def calls (P : Provider σ η) (cfg : RunConfig) (p : Program) (inputs : List (TensorId × η))
    (s : σ) : List (Exchange η) :=
  (p.run P.recorded cfg inputs (s, [])).2.2

def callsBytes (P : Provider σ η) (cfg : RunConfig) (bytes : Bytes) (inputs : List (TensorId × η))
    (s : σ) : List (Exchange η) :=
  (runBytes P.recorded cfg bytes inputs (s, [])).2.2

/-- No run loses a handle or passes one twice for its release. Every handle that was supplied or
made is passed for its release or handed back, once and not both, and handles are handed back only
by a run that completed and retains its outputs. -/
theorem run_keeps_custody (hP : P.Identifies identity used) (cfg : RunConfig)
    (inputs : List (TensorId × η)) (s : σ)
    (hdistinct : (inputs.map fun input => identity input.2).Nodup)
    (hused : ∀ input ∈ inputs, used s (identity input.2)) :
    (∀ p : Program,
      (p.run P cfg inputs s).1.Settles identity (inputs.map Prod.snd) (p.calls P cfg inputs s) ∧
        ((p.run P cfg inputs s).1.outputs ≠ [] →
          (p.run P cfg inputs s).1.status = .completed ∧ cfg.retainOutputs = true)) ∧
    ∀ bytes : Bytes,
      (runBytes P cfg bytes inputs s).1.Settles identity (inputs.map Prod.snd)
          (callsBytes P cfg bytes inputs s) ∧
        ((runBytes P cfg bytes inputs s).1.outputs ≠ [] →
          (runBytes P cfg bytes inputs s).1.status = .completed ∧ cfg.retainOutputs = true) := by
  refine ⟨fun p => ⟨?_, p.run_outputs P cfg inputs s⟩,
    fun bytes => ⟨?_, runBytes_outputs P cfg bytes inputs s⟩⟩
  · rw [p.run_recorded P cfg inputs s []]
    exact run_settles hP cfg p s hdistinct hused
  · rw [runBytes_recorded P cfg bytes inputs s []]
    exact runBytes_settles hP cfg bytes s hdistinct hused

/-- A program that lists an output twice, on a host device that fails the last release. -/
theorem run_keeps_custody_twice :
    let p : Program := ⟨[⟨1, ⟨.u8, [2]⟩⟩], [2, 2], [.allocate 2 ⟨.u8, [1]⟩ .host]⟩
    let t : HostTensor := ⟨⟨1, ⟨.u8, [2]⟩, .host⟩, [7, 9]⟩
    let d := ((HostDevice.new 64 64).hostTensor ⟨.u8, [2]⟩ [7, 9]).2.failNext .release
    (∀ input ∈ [((1 : TensorId), t)], input.2.serial < d.nextSerial) ∧
      (p.run HostDevice.provider {} [(1, t)] d).1.Settles (·.serial) [t]
        (p.calls HostDevice.provider {} [(1, t)] d) := by
  intro p t d
  have hused : ∀ input ∈ [((1 : TensorId), t)], input.2.serial < d.nextSerial := by decide
  refine ⟨hused, ?_⟩
  exact ((run_keeps_custody HostDevice.provider_identifies {} [(1, t)] d (by simp) hused).1 p).1

end Program

end TensorMachine
