import TensorMachine.Proofs.Custody
import TensorMachine.Proofs.HostMemory

/-!
# The net effect of a run on the host device

A run takes the supplied tensors off the device and leaves those that it hands back. All others that
it makes are released, and a release which the device refuses leaves the tensor to the device, which
goes on paying for it. So the counter of device memory differs behind a run by what is handed back
and by what was deferred, and nothing is deferred unless a failure was armed or a pin was met.
-/

namespace TensorMachine

/-!
### What every call keeps
-/

/-- A relation between the states of a device that every call keeps, and every succession of
calls. -/
structure Provider.Keeps {σ η : Type} (P : Provider σ η) (R : σ → σ → Prop) : Prop where
  refl : ∀ s, R s s
  trans : ∀ {s s' s''}, R s s' → R s' s'' → R s s''
  allocate : ∀ {type residence s answer s'}, P.allocate type residence s = (answer, s') → R s s'
  release : ∀ {handle force s answer s'}, P.release handle force s = (answer, s') → R s s'
  transfer : ∀ {destination handle s answer left s'},
    P.transfer destination handle s = (answer, left, s') → R s s'
  compute : ∀ {kernel operands s answer s'}, P.compute kernel operands s = (answer, s') → R s s'

namespace Provider.Keeps

variable {σ η : Type} {P : Provider σ η} {R : σ → σ → Prop}

lemma step (h : P.Keeps R) (i : Instruction) (m : Machine σ η) :
    R m.device (m.step P i).2.device := by
  rcases Machine.step_cases P i m with ⟨m', hstep, hpasses⟩ | ⟨e, m', hstep, hstops⟩ <;> rw [hstep]
  · cases hpasses with
    | allocate _ hcall => exact h.allocate hcall
    | transfer _ _ _ hcall => exact h.transfer hcall
    | deallocate _ hcall => exact h.release hcall
    | compute _ _ _ hcall => exact h.compute hcall
  · cases hstops with
    | plan => exact h.refl m.device
    | allocate _ hcall => exact h.allocate hcall
    | transfer _ _ _ hcall => exact h.transfer hcall
    | deallocate _ hcall => exact h.release hcall
    | compute _ _ _ hcall => exact h.compute hcall

lemma advance (h : P.Keeps R) (instructions : List Instruction) (n : Nat) (m : Machine σ η) :
    R m.device (Machine.advance P instructions n m).machine.device :=
  Machine.advance_keeps (I := fun m' => R m.device m'.device)
    (fun i m' hm => h.trans hm (h.step i m')) instructions n (h.refl m.device)

lemma releaseAll (h : P.Keeps R) (force : Bool) (handles : List (TensorId × η)) (s : σ) :
    R s (releaseAll P force handles s).device := by
  induction handles generalizing s with
  | nil => exact h.refl s
  | cons input handles ih =>
    obtain ⟨id, handle⟩ := input
    rcases hcall : P.release handle force s with ⟨answer, s'⟩
    rw [TensorMachine.releaseAll, hcall]
    have hall := h.trans (h.release hcall) (ih s')
    cases answer <;> exact hall

lemma run (h : P.Keeps R) (cfg : RunConfig) (p : Program) (inputs : List (TensorId × η)) (s : σ) :
    R s (p.run P cfg inputs s).2 := by
  unfold Program.run
  cases p.accept cfg (inputs.map Prod.fst) with
  | error fault => exact h.releaseAll cfg.forceTeardown inputs s
  | ok _ =>
    rcases Pool.bindInputs inputs .empty with ⟨e | _, pool⟩
    · exact h.releaseAll cfg.forceTeardown pool.drain.1 s
    · exact h.trans (h.advance p.instructions 0 ⟨pool, s⟩) (h.releaseAll cfg.forceTeardown _ _)

lemma runBytes (h : P.Keeps R) (cfg : RunConfig) (bytes : Bytes) (inputs : List (TensorId × η))
    (s : σ) : R s (Program.runBytes P cfg bytes inputs s).2 := by
  unfold Program.runBytes
  cases Program.decode bytes with
  | error e => exact h.releaseAll cfg.forceTeardown inputs s
  | ok p => exact h.run cfg p inputs s

end Provider.Keeps

/-- An identity that was used remains so under every call. -/
lemma Provider.Identifies.keeps_used {σ η ι : Type} {P : Provider σ η} {identity : η → ι}
    {used : σ → ι → Prop} (hP : P.Identifies identity used) :
    P.Keeps fun s s' => ∀ n, used s n → used s' n where
  refl _ _ hn := hn
  trans h h' n hn := h' n (h n hn)
  allocate := by
    intro type residence s answer s' hcall n hn
    have hused := hP.allocate_used type residence s n hn
    rwa [hcall] at hused
  release := by
    intro handle force s answer s' hcall n hn
    have hused := hP.release_used handle force s n hn
    rwa [hcall] at hused
  transfer := by
    intro destination handle s answer left s' hcall n hn
    have hused := hP.transfer_used destination handle s n hn
    rwa [hcall] at hused
  compute := by
    intro kernel operands s answer s' hcall n hn
    have hused := hP.compute_used kernel operands s n hn
    rwa [hcall] at hused

/-!
### Deferred releases
-/

namespace HostDevice

/-- Every release among some calls is forced or of a serial without a pin. -/
def Unhindered (d : HostDevice) (calls : List (Exchange HostTensor)) : Prop :=
  ∀ t force answer, .release t force answer ∈ calls → force = true ∨ t.serial ∉ d.pins

/-- Recorded calls that came to pass between two states of a host device, with the tensors that they
left to it. There are none if no release was armed to fail and none was hindered by a pin. -/
structure Defers (s s' : HostDevice × List (Exchange HostTensor)) : Prop where
  armed : .release ∉ s.1.armed → .release ∉ s'.1.armed
  pins : ∀ n ∈ s'.1.pins, n ∈ s.1.pins
  deferred : ∃ calls added, s'.2 = s.2 ++ calls ∧ s'.1.deferred = s.1.deferred ++ added ∧
    (.release ∉ s.1.armed → s.1.Unhindered calls → added = [])

namespace Defers

variable {s s' s'' : HostDevice × List (Exchange HostTensor)}

lemma refl (s : HostDevice × List (Exchange HostTensor)) : Defers s s :=
  ⟨id, fun _ h => h, [], [], by simp⟩

lemma trans (h : Defers s s') (h' : Defers s' s'') : Defers s s'' := by
  obtain ⟨calls, added, hcalls, hadded, hnone⟩ := h.deferred
  obtain ⟨calls', added', hcalls', hadded', hnone'⟩ := h'.deferred
  refine ⟨fun harmed => h'.armed (h.armed harmed), fun n hn => h.pins n (h'.pins n hn),
    calls ++ calls', added ++ added', ?_, ?_, fun harmed hfree => ?_⟩
  · rw [hcalls', hcalls, List.append_assoc]
  · rw [hadded', hadded, List.append_assoc]
  · have hfirst : s.1.Unhindered calls := fun t force answer hmem =>
      hfree t force answer (List.mem_append_left _ hmem)
    have hrest : s'.1.Unhindered calls' := fun t force answer hmem =>
      (hfree t force answer (List.mem_append_right _ hmem)).imp_right fun hpin hpin' =>
        hpin (h.pins t.serial hpin')
    rw [hnone harmed hfirst, hnone' (h.armed harmed) hrest, List.append_nil]

lemma of_sameDuties {call : Exchange HostTensor} (hcall : s'.2 = s.2 ++ [call])
    (hsame : s.1.SameDuties s'.1) : Defers s s' where
  armed h hmem := h (hsame.armed _ hmem)
  pins _ hn := hsame.pins ▸ hn
  deferred := ⟨[call], [], hcall, by rw [hsame.deferred, List.append_nil], fun _ _ => rfl⟩

lemma of_release {t : HostTensor} {force : Bool} {answer : Except DeviceError Unit}
    (hrecorded : provider.recorded.release t force s = (answer, s')) : Defers s s' := by
  obtain ⟨hcall, hcalls⟩ := Provider.release_of_recorded hrecorded
  obtain ⟨d, log⟩ := s
  obtain ⟨d', log'⟩ := s'
  have hcall : d.release t force = (answer, d') := hcall
  rcases release_outcome d t force with
    ⟨-, hdead⟩ | ⟨-, ⟨harmed, hfired⟩ | ⟨-, hforce, hpinned, hdeferred⟩ | ⟨-, -, hfreed⟩⟩
  · cases hcall.symm.trans hdead
    exact of_sameDuties hcalls .rfl
  · cases hcall.symm.trans hfired
    refine ⟨fun h => absurd harmed h, fun _ hn => hn, _, [t], hcalls, rfl, fun h => ?_⟩
    exact absurd harmed h
  · cases hcall.symm.trans hdeferred
    refine ⟨id, fun _ hn => hn, _, [t], hcalls, rfl, fun _ hfree => ?_⟩
    rcases hfree t force _ List.mem_cons_self with hforced | hfree
    · rw [hforce] at hforced
      cases hforced
    · exact absurd hpinned hfree
  · cases hcall.symm.trans hfreed
    exact ⟨id, fun _ hn => List.mem_of_mem_filter hn, _, [], hcalls, (List.append_nil _).symm,
      fun _ _ => rfl⟩

end Defers

/-- In the recorded calls of the host device every deferred release has its cause. -/
theorem keeps_defers : provider.recorded.Keeps Defers where
  refl := .refl
  trans := .trans
  allocate hrecorded := by
    obtain ⟨hcall, hcalls⟩ := Provider.allocate_of_recorded hrecorded
    exact .of_sameDuties hcalls (sameDuties_allocate hcall)
  release := .of_release
  transfer hrecorded := by
    obtain ⟨hcall, hcalls⟩ := Provider.transfer_of_recorded hrecorded
    exact .of_sameDuties hcalls (sameDuties_transfer hcall)
  compute hrecorded := by
    obtain ⟨hcall, hcalls⟩ := Provider.compute_of_recorded hrecorded
    exact .of_sameDuties hcalls (sameDuties_compute hcall)

/-!
### Lent tensors
-/

/-- Some tensors, in any order, are those that are outstanding from a host device. -/
def Lent (budget : UInt64) (maxAllocation : Nat) (d : HostDevice) (tensors : List HostTensor) :
    Prop :=
  ∃ listed, History budget maxAllocation d listed ∧ listed.Perm tensors

namespace Lent

variable {budget : UInt64} {maxAllocation : Nat} {d d' : HostDevice} {t left : HostTensor}
  {tensors others : List HostTensor}

lemma perm (h : Lent budget maxAllocation d tensors) (hperm : tensors.Perm others) :
    Lent budget maxAllocation d others := by
  obtain ⟨listed, hhistory, hlisted⟩ := h
  exact ⟨listed, hhistory, hlisted.trans hperm⟩

lemma allocate (h : Lent budget maxAllocation d tensors) {type : TensorType}
    {residence : Residence} {answer : Except DeviceError HostTensor}
    (hcall : provider.allocate type residence d = (answer, d')) :
    Lent budget maxAllocation d' (answer.toOption.toList ++ tensors) := by
  obtain ⟨listed, hhistory, hlisted⟩ := h
  have hcall : d.allocate type residence none = (answer, d') := hcall
  have hnext := hhistory.allocate type residence none
  rw [hcall] at hnext
  exact ⟨_, hnext, hlisted.append_left _⟩

lemma release (h : Lent budget maxAllocation d (t :: others)) {force : Bool}
    {answer : Except DeviceError Unit} (hcall : provider.release t force d = (answer, d')) :
    Lent budget maxAllocation d' others := by
  obtain ⟨listed, hhistory, hlisted⟩ := h
  have hcall : d.release t force = (answer, d') := hcall
  have hnext := hhistory.release hlisted force
  rw [hcall] at hnext
  exact ⟨_, hnext, .refl _⟩

lemma transfer (h : Lent budget maxAllocation d (t :: others)) {destination : Residence}
    {answer : Except DeviceError Unit}
    (hcall : provider.transfer destination t d = (answer, left, d')) :
    Lent budget maxAllocation d' (left :: others) := by
  obtain ⟨listed, hhistory, hlisted⟩ := h
  have hcall : d.transfer destination t = (answer, left, d') := hcall
  have hnext := hhistory.transfer hlisted destination
  rw [hcall] at hnext
  exact ⟨_, hnext, .refl _⟩

lemma compute (h : Lent budget maxAllocation d tensors) {kernel : Kernel}
    {operands : List HostTensor} {answer : Except DeviceError HostTensor}
    (hcall : provider.compute kernel operands d = (answer, d'))
    (hoperands : ∀ t ∈ operands, t ∈ tensors) :
    Lent budget maxAllocation d' (answer.toOption.toList ++ tensors) := by
  obtain ⟨listed, hhistory, hlisted⟩ := h
  have hcall : d.compute kernel operands = (answer, d') := hcall
  have hnext := hhistory.compute kernel operands fun t ht => hlisted.symm.subset (hoperands t ht)
  rw [hcall] at hnext
  exact ⟨_, hnext, hlisted.append_left _⟩

lemma releaseAll {force : Bool} {handles : List (TensorId × HostTensor)}
    (h : Lent budget maxAllocation d (handles.map Prod.snd ++ others)) :
    Lent budget maxAllocation (releaseAll provider force handles d).device others := by
  induction handles generalizing d with
  | nil => exact h
  | cons input handles ih =>
    obtain ⟨id, t⟩ := input
    rcases hcall : provider.release t force d with ⟨answer, d'⟩
    rw [TensorMachine.releaseAll, hcall]
    have hall := ih (Lent.release h hcall)
    cases answer <;> exact hall

/-- The counters of the device in terms of the tensors that it has lent and of those left to it. -/
lemma counters (h : Lent budget maxAllocation d tensors) :
    d.outstanding.Perm (tensors.map (·.serial)) ∧
      d.memory.used.toNat = deviceBytes (tensors ++ d.deferred) := by
  obtain ⟨listed, hhistory, hlisted⟩ := h
  have haccounts := hhistory.accounts
  refine ⟨haccounts.outstanding.trans (hlisted.map _), ?_⟩
  rw [← deviceBytes_perm (hlisted.append_right d.deferred)]
  exact haccounts.books.counts.used

end Lent

end HostDevice

/-- The tensors in the pool and some others are those that are outstanding from the device. -/
structure Machine.Lends (budget : UInt64) (maxAllocation : Nat) (others : List HostTensor)
    (m : Machine HostDevice HostTensor) : Prop where
  nodup_ids : m.pool.ids.Nodup
  lent : HostDevice.Lent budget maxAllocation m.device (m.pool.identities id ++ others)

namespace Machine.Lends

variable {budget : UInt64} {maxAllocation : Nat} {others : List HostTensor}
  {m m' : Machine HostDevice HostTensor} {i : Instruction}

/-- A tensor in the pool stands in front of the others. -/
lemma front (h : Lends budget maxAllocation others m) {entry : Entry HostTensor}
    (hfind : m.pool.find? entry.id = some entry) :
    HostDevice.Lent budget maxAllocation m.device
      (entry.handle :: ((m.pool.retire entry.id .freed).identities id ++ others)) :=
  h.lent.perm ((Pool.identities_retire id h.nodup_ids hfind .freed).append_right others)

lemma introduced {d' : HostDevice} {t : HostTensor}
    (h : HostDevice.Lent budget maxAllocation d' (t :: (m.pool.identities id ++ others)))
    (output : TensorId) (side : Residence) :
    HostDevice.Lent budget maxAllocation d'
      ((m.pool.introduce output t side).identities id ++ others) :=
  h.perm ((Pool.identities_introduce_perm id m.pool output t side).symm.append_right others)

lemma operands_lent {p : Pool HostTensor} {entries : List (Entry HostTensor)}
    (hentries : ∀ e ∈ entries, p.find? e.id = some e ∧ e.residence = .device) :
    ∀ t ∈ entries.map (·.handle), t ∈ p.identities id ++ others := by
  intro t ht
  obtain ⟨e, he, rfl⟩ := List.mem_map.mp ht
  exact List.mem_append_left _ (List.mem_map_of_mem (Pool.mem_of_find? (hentries e he).1))

lemma passes (h : Lends budget maxAllocation others m)
    (hpasses : m.Passes HostDevice.provider i m') : Lends budget maxAllocation others m' := by
  refine ⟨hpasses.nodup_ids h.nodup_ids, ?_⟩
  cases hpasses with
  | allocate _ hcall => exact introduced (h.lent.allocate hcall) _ _
  | @transfer destination entry target left d' hfind _ _ hcall =>
    have hmove := Action.identities_move_perm id h.nodup_ids hfind left destination target
    exact ((h.front hfind).transfer hcall).perm (hmove.symm.append_right others)
  | deallocate hfind hcall => exact (h.front hfind).release hcall
  | compute _ hentries _ hcall =>
    exact introduced (h.lent.compute hcall (operands_lent hentries)) _ _

lemma stops (h : Lends budget maxAllocation others m) {e : ExecutionError}
    (hstops : m.Stops HostDevice.provider i e m') : Lends budget maxAllocation others m' := by
  refine ⟨hstops.nodup_ids h.nodup_ids, ?_⟩
  cases hstops with
  | plan => exact h.lent
  | allocate _ hcall => exact h.lent.allocate hcall
  | @transfer destination entry target cause left d' hfind _ _ hcall =>
    have hplace :=
      Pool.identities_place_perm id h.nodup_ids hfind left entry.residence .freed
    exact ((h.front hfind).transfer hcall).perm (hplace.symm.append_right others)
  | deallocate hfind hcall => exact (h.front hfind).release hcall
  | compute _ hentries _ hcall => exact h.lent.compute hcall (operands_lent hentries)

/-- The pool of some inputs that are lent. -/
lemma ofInputs {d : HostDevice} {inputs : List (TensorId × HostTensor)}
    (hids : (inputs.map Prod.fst).Nodup)
    (h : HostDevice.Lent budget maxAllocation d (inputs.map Prod.snd ++ others)) :
    Lends budget maxAllocation others ⟨.ofInputs inputs, d⟩ := by
  have hpool : (Pool.ofInputs inputs).identities id = inputs.map Prod.snd := by
    simp [Pool.identities, Pool.ofInputs, Function.comp_def]
  refine ⟨by rwa [Pool.ids_ofInputs], ?_⟩
  rwa [hpool]

/-- However far a list of instructions comes, the outstanding tensors are those in the pool and the
others. -/
theorem advance (h : Lends budget maxAllocation others m) (instructions : List Instruction)
    (n : Nat) :
    Lends budget maxAllocation others
      (Machine.advance HostDevice.provider instructions n m).machine := by
  refine advance_keeps (I := Lends budget maxAllocation others) (fun i m h => ?_) instructions n h
  rcases step_cases HostDevice.provider i m with ⟨m', hstep, hpasses⟩ | ⟨e, m', hstep, hstops⟩
  · rw [hstep]
    exact h.passes hpasses
  · rw [hstep]
    exact h.stops hstops

end Machine.Lends

/-!
### Whole runs
-/

namespace Program

variable {budget : UInt64} {maxAllocation : Nat} {d : HostDevice} {others : List HostTensor}
  {inputs : List (TensorId × HostTensor)}

lemma lent_execute (cfg : RunConfig) (p : Program) {pool : Pool HostTensor}
    (hstart : Machine.Lends budget maxAllocation others ⟨pool, d⟩) :
    let result := p.execute HostDevice.provider cfg pool d
    HostDevice.Lent budget maxAllocation result.2 (result.1.outputs.map Prod.snd ++ others) := by
  have hend := hstart.advance p.instructions 0
  simp only [execute]
  generalize Machine.advance HostDevice.provider p.instructions 0 ⟨pool, d⟩ = progress at hend ⊢
  have hover := progress.handOver_perm id cfg p.outputs hend.nodup_ids
  generalize progress.handOver cfg p.outputs = handed at hover ⊢
  obtain ⟨outputs, left⟩ := handed
  rw [← Pool.map_drain id left] at hover
  have hgone : (progress.machine.pool.identities id ++ others).Perm
      (left.drain.1.map Prod.snd ++ (outputs.map Prod.snd ++ others)) := by
    rw [← List.append_assoc]
    exact (hover.symm.trans List.perm_append_comm).append_right others
  exact (hend.lent.perm hgone).releaseAll

lemma lent_run (cfg : RunConfig) (p : Program)
    (h : HostDevice.Lent budget maxAllocation d (inputs.map Prod.snd ++ others)) :
    let result := p.run HostDevice.provider cfg inputs d
    HostDevice.Lent budget maxAllocation result.2 (result.1.outputs.map Prod.snd ++ others) := by
  unfold run
  cases haccept : p.accept cfg (inputs.map Prod.fst) with
  | error fault => exact h.releaseAll
  | ok _ =>
    have hids := (suppliedBy_of_accept haccept).1
    simp only [Pool.bindInputs_of_nodup inputs hids]
    exact lent_execute cfg p (.ofInputs hids h)

lemma lent_runBytes (cfg : RunConfig) (bytes : Bytes)
    (h : HostDevice.Lent budget maxAllocation d (inputs.map Prod.snd ++ others)) :
    let result := runBytes HostDevice.provider cfg bytes inputs d
    HostDevice.Lent budget maxAllocation result.2 (result.1.outputs.map Prod.snd ++ others) := by
  unfold runBytes
  cases decode bytes with
  | error e => exact h.releaseAll
  | ok p => exact p.lent_run cfg h

end Program

/-- What a run with some inputs, calls and report makes of the counters of a host device. -/
structure HostDevice.NetEffect (d : HostDevice) (inputs : List (TensorId × HostTensor))
    (calls : List (Exchange HostTensor)) (report : Report HostTensor) (d' : HostDevice) : Prop where
  outstanding : d'.outstanding.Perm (d.outstanding.diff (inputs.map (·.2.serial)) ++
    report.outputs.map (·.2.serial))
  memory : ∃ added, d'.deferred = d.deferred ++ added ∧
    d'.memory.used.toNat =
      d.memory.used.toNat + deviceBytes (report.outputs.map Prod.snd) + deviceBytes added ∧
    (.release ∉ d.armed → d.Unhindered calls → added = [])

namespace HostDevice

lemma NetEffect.of_lent {budget : UInt64} {maxAllocation : Nat} {d d' : HostDevice}
    {others : List HostTensor} {inputs : List (TensorId × HostTensor)}
    {calls : List (Exchange HostTensor)} {report : Report HostTensor}
    (hbefore : Lent budget maxAllocation d (inputs.map Prod.snd ++ others))
    (hside : ∀ input ∈ inputs, input.2.location = .host)
    (hafter : Lent budget maxAllocation d' (report.outputs.map Prod.snd ++ others))
    (hdefers : Defers (d, []) (d', calls)) : NetEffect d inputs calls report d' := by
  obtain ⟨hout, hused⟩ := hbefore.counters
  obtain ⟨hout', hused'⟩ := hafter.counters
  obtain ⟨more, added, hcalls, hadded, hnone⟩ := hdefers.deferred
  obtain rfl : calls = more := hcalls
  have hadded : d'.deferred = d.deferred ++ added := hadded
  rw [List.map_append, List.map_map] at hout hout'
  refine ⟨?_, added, hadded, ?_, hnone⟩
  · have hothers := hout.diff_right (inputs.map (·.2.serial))
    rw [Function.comp_def, append_diff_left] at hothers
    exact hout'.trans (List.perm_append_comm.trans (hothers.symm.append_right _))
  · have hinputs : deviceBytes (inputs.map Prod.snd) = 0 := by
      apply deviceBytes_of_host
      intro t ht
      obtain ⟨input, hinput, rfl⟩ := List.mem_map.mp ht
      exact hside input hinput
    rw [hused', hused, hadded]
    simp only [deviceBytes_append]
    omega

lemma NetEffect.length_outstanding {d d' : HostDevice} {calls : List (Exchange HostTensor)}
    {report : Report HostTensor} (h : NetEffect d [] calls report d') (hd : d.outstanding = []) :
    d'.outstanding.length = report.outputs.length := by
  have hlength := h.outstanding.length_eq
  rw [hd] at hlength
  simpa using hlength

end HostDevice

namespace Program

/-- Whatever is run with host tensors of a host device, the supplied tensors are no longer
outstanding behind the run, and those that it hands back are. The counter of device memory has grown
by what is handed back and by what was deferred, which is nothing unless a failure was armed or a
release met a pin. A run on a new device leaves there what it hands back. -/
theorem hostRun_netEffect {budget : UInt64} {maxAllocation : Nat} {d : HostDevice}
    {tensors : List HostTensor} (hhistory : HostDevice.History budget maxAllocation d tensors)
    (cfg : RunConfig) (inputs : List (TensorId × HostTensor))
    (hinputs : (inputs.map Prod.snd).Subperm tensors)
    (hside : ∀ input ∈ inputs, input.2.location = .host) :
    (∀ p : Program,
      d.NetEffect inputs (p.calls HostDevice.provider cfg inputs d)
        (p.run HostDevice.provider cfg inputs d).1 (p.run HostDevice.provider cfg inputs d).2) ∧
    (∀ bytes : Bytes,
      d.NetEffect inputs (callsBytes HostDevice.provider cfg bytes inputs d)
        (runBytes HostDevice.provider cfg bytes inputs d).1
        (runBytes HostDevice.provider cfg bytes inputs d).2) ∧
    (d = .new budget maxAllocation → inputs = [] →
      (∀ p : Program, (p.run HostDevice.provider cfg inputs d).2.outstanding.length =
        (p.run HostDevice.provider cfg inputs d).1.outputs.length) ∧
      ∀ bytes : Bytes, (runBytes HostDevice.provider cfg bytes inputs d).2.outstanding.length =
        (runBytes HostDevice.provider cfg bytes inputs d).1.outputs.length) := by
  obtain ⟨l, hl, hsub⟩ := List.subperm_iff.mp hinputs
  obtain ⟨others, hothers⟩ := hsub.exists_perm_append
  have hbefore : HostDevice.Lent budget maxAllocation d (inputs.map Prod.snd ++ others) :=
    ⟨tensors, hhistory, hl.symm.trans hothers⟩
  have hrun : ∀ p : Program, d.NetEffect inputs (p.calls HostDevice.provider cfg inputs d)
      (p.run HostDevice.provider cfg inputs d).1 (p.run HostDevice.provider cfg inputs d).2 := by
    intro p
    refine .of_lent hbefore hside (p.lent_run cfg hbefore) ?_
    rw [p.run_recorded HostDevice.provider cfg inputs d []]
    exact HostDevice.keeps_defers.run cfg p inputs (d, [])
  have hrunBytes : ∀ bytes : Bytes,
      d.NetEffect inputs (callsBytes HostDevice.provider cfg bytes inputs d)
        (runBytes HostDevice.provider cfg bytes inputs d).1
        (runBytes HostDevice.provider cfg bytes inputs d).2 := by
    intro bytes
    refine .of_lent hbefore hside (lent_runBytes cfg bytes hbefore) ?_
    rw [runBytes_recorded HostDevice.provider cfg bytes inputs d []]
    exact HostDevice.keeps_defers.runBytes cfg bytes inputs (d, [])
  refine ⟨hrun, hrunBytes, ?_⟩
  rintro rfl rfl
  exact ⟨fun p => (hrun p).length_outstanding rfl,
    fun bytes => (hrunBytes bytes).length_outstanding rfl⟩

/-- Behind the run the device pays for the byte that is handed back and for the two bytes of a
pinned tensor. -/
theorem hostRun_netEffect_pinned :
    let p : Program := ⟨[⟨1, ⟨.u8, [2]⟩⟩], [2],
      [.allocate 2 ⟨.u8, [1]⟩ .device, .transfer .device 1 .inPlace]⟩
    let t : HostTensor := ⟨⟨1, ⟨.u8, [2]⟩, .host⟩, [7, 9]⟩
    let d := ((HostDevice.new 64 64).hostTensor t.type t.bytes).2.pin 1
    let cfg : RunConfig := { forceTeardown := false }
    let result := p.run HostDevice.provider cfg [(1, t)] d
    HostDevice.History 64 64 d [t] ∧
      d.NetEffect [(1, t)] (p.calls HostDevice.provider cfg [(1, t)] d) result.1 result.2 ∧
      result.2.outstanding = [2] ∧ result.2.deferred.map (·.serial) = [1] ∧
      result.2.memory.used = 3 := by
  intro p t d cfg result
  have hnew : HostDevice.History 64 64 (.new 64 64) [] := .new
  have hhistory : HostDevice.History 64 64 d [t] :=
    (hnew.allocate t.type .host (some t.bytes)).pin 1
  have heffect := (hostRun_netEffect hhistory cfg [(1, t)] (.refl _) (by decide)).1 p
  exact ⟨hhistory, heffect, by decide, by decide, by decide⟩

end Program

end TensorMachine
