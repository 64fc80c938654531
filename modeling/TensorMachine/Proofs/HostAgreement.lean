import TensorMachine.Proofs.Acceptance
import TensorMachine.Proofs.Extension
import TensorMachine.Proofs.HostPrediction
import TensorMachine.Proofs.Runs

/-!
# Agreement of a pool with the host device

The side of a tensor is kept twice, by the pool and in the handle, and the two change at different
times: the handle when the device is called, the pool when the answer is put into it, with refusals
in between. On the host device they never come apart, so that no call is given a handle that is
gone, is given twice or lives on the wrong side. What remains are the causes that lie in the state
of the device or in the program itself.
-/

namespace TensorMachine

/-!
### Agreement
-/

/-- The pool and the host device tell the same of every live tensor, and no two live tensors have
one serial. -/
structure Machine.Agrees (m : Machine HostDevice HostTensor) : Prop where
  side : ∀ e ∈ m.pool.live, e.state = .resident .device ↔ e.handle.location = .device
  outstanding : ∀ e ∈ m.pool.live, e.handle.serial ∈ m.device.outstanding
  serials : (m.pool.live.map (·.handle.serial)).Nodup

/-- A host machine beside some symbolic one, with live identifiers that differ. -/
structure Machine.Mirrored (m : Machine HostDevice HostTensor) : Prop where
  nodup_ids : m.pool.ids.Nodup
  mirrors : ∃ q, m.Mirrors q

lemma Pool.place_self {η : Type} {p : Pool η} (hids : p.ids.Nodup) {entry : Entry η}
    (hfind : p.find? entry.id = some entry) :
    p.place entry.id entry.handle entry.residence = p := by
  obtain ⟨live, retired⟩ := p
  simp only [place, mk.injEq, and_true]
  conv_rhs => rw [← List.map_id live]
  apply List.map_congr_left
  intro e he
  by_cases h : e.id = entry.id
  · rw [if_pos h, eq_of_id hids he (mem_of_find? hfind) h]
    rfl
  · rw [if_neg h]
    rfl

namespace Machine

variable {m m' : Machine HostDevice HostTensor} {q : Machine Unit TensorType} {i : Instruction}

lemma Mirrors.of_sameHandles (h : Mirrors m q) {d' : HostDevice} (hsame : m.device.SameHandles d') :
    Mirrors ⟨m.pool, d'⟩ q where
  alike := h.alike
  outstanding_lt := by
    simp only [hsame.outstanding, hsame.nextSerial]
    exact h.outstanding_lt
  outstanding := by
    simp only [hsame.outstanding]
    exact h.outstanding
  location := h.location
  addressable := h.addressable
  distinct := h.distinct

namespace Mirrored

lemma agrees (h : m.Mirrored) : m.Agrees := by
  obtain ⟨q, hq⟩ := h.mirrors
  refine ⟨fun e he => ?_, hq.outstanding, ?_⟩
  · rw [hq.location e he, Entry.state, State.resident.injEq]
  · have hlive : m.pool.live.Nodup := h.nodup_ids.of_map _
    exact hlive.map_on fun e he e' he' heq =>
      Pool.eq_of_id h.nodup_ids he he' (hq.distinct e he e' he' heq)

lemma sameHandles (h : m.Mirrored) {d' : HostDevice} (hsame : m.device.SameHandles d') :
    Mirrored ⟨m.pool, d'⟩ := by
  obtain ⟨q, hq⟩ := h.mirrors
  exact ⟨h.nodup_ids, q, hq.of_sameHandles hsame⟩

/-- A release takes the identifier and the serial away, whether it is granted or not. -/
lemma released (h : m.Mirrored) {entry : Entry HostTensor}
    (hfind : m.pool.find? entry.id = some entry) {force : Bool}
    {answer : Except DeviceError Unit} {d' : HostDevice}
    (hcall : HostDevice.provider.release entry.handle force m.device = (answer, d')) (fate : Fate) :
    Mirrored ⟨m.pool.retire entry.id fate, d'⟩ := by
  obtain ⟨q, hq⟩ := h.mirrors
  have hentry := Pool.mem_of_find? hfind
  rcases m.device.release_cases entry.handle force with
    ⟨hgone, -⟩ | ⟨-, answer', d'', hcall', -, hnext, hout⟩
  · exact absurd (hq.outstanding entry hentry) hgone
  · cases hcall.symm.trans hcall'
    exact ⟨Pool.nodup_ids_retire h.nodup_ids _ _, _, hq.released hentry hnext hout fate⟩

/-- A step that goes through goes through on the symbolic device as well. -/
lemma done (h : m.Mirrored) (hstep : m.step HostDevice.provider i = (.ok (), m'))
    (hids : m'.pool.ids.Nodup) : m'.Mirrored := by
  obtain ⟨q, hq⟩ := h.mirrors
  have hfollows := step_follows_symbolic i m q hq
  rw [hstep] at hfollows
  generalize q.step .symbolic i = beside at hfollows
  cases hfollows with
  | done hnext => exact ⟨hids, _, hnext⟩

lemma stops (h : m.Mirrored) {e : ExecutionError} (hstops : m.Stops HostDevice.provider i e m') :
    m'.Mirrored := by
  cases hstops with
  | plan => exact h
  | @allocate output type residence cause d' hfresh hcall =>
    rcases m.device.allocate_cases type residence none with
      ⟨_, _, hrefused, hsame, -⟩ | ⟨x, _, hissued, -⟩
    · cases hcall.symm.trans hrefused
      exact h.sameHandles hsame
    · cases hcall.symm.trans hissued
  | @transfer destination entry target cause t d' hfind hside hfresh hcall =>
    rcases m.device.transfer_cases destination entry.handle with
      ⟨_, _, hrefused, hsame, -⟩ | ⟨_, hmoved, -⟩
    · cases hcall.symm.trans hrefused
      rw [Pool.place_self h.nodup_ids hfind]
      exact h.sameHandles hsame
    · cases hcall.symm.trans hmoved
  | deallocate hfind hcall => exact h.released hfind hcall .freed
  | @compute kernel entries output cause d' harity hentries hfresh hcall =>
    rcases m.device.compute_cases kernel (entries.map (·.handle)) with
      ⟨_, _, hrefused, hsame, -⟩ | ⟨x, _, hissued, -⟩
    · cases hcall.symm.trans hrefused
      exact h.sameHandles hsame
    · cases hcall.symm.trans hissued

/-- However far a list of instructions comes, the machine stays beside a symbolic one. -/
theorem advance (h : m.Mirrored) (instructions : List Instruction) (n : Nat) :
    (Machine.advance HostDevice.provider instructions n m).machine.Mirrored := by
  refine advance_keeps (I := Mirrored) (fun i m h => ?_) instructions n h
  rcases step_cases HostDevice.provider i m with ⟨m', hstep, hpasses⟩ | ⟨e, m', hstep, hstops⟩
  · rw [hstep]
    exact h.done hstep (hpasses.nodup_ids h.nodup_ids)
  · rw [hstep]
    exact h.stops hstops

end Mirrored

end Machine

/-!
### Causes of refusals
-/

/-- The causes for which a device that knows all handles may refuse the calls of some instructions:
its own state, an allocation that cannot be addressed, and operands that do not fit a kernel. -/
inductive RefusedFor (instructions : List Instruction) : DeviceError → Prop
  | transient {e : DeviceError} (h : e.Transient) : RefusedFor instructions e
  | size {output : TensorId} {type : TensorType} {residence : Residence} {e : DeviceError}
    (hi : .allocate output type residence ∈ instructions) (h : type.addressableSize = .error e) :
    RefusedFor instructions e
  | operands {kernel : Kernel} {types : List TensorType} {e : DeviceError}
    (h : kernel.resultType types = .error e) : RefusedFor instructions e

lemma DeviceError.Transient.kind_ne {e : DeviceError} (h : e.Transient) {kind : DeviceErrorKind}
    (hkind : kind ≠ .backend) : e.kind? ≠ some kind := by
  cases e with
  | outOfMemory | pendingReferences => exact nofun
  | backend => exact fun heq => hkind (Option.some_inj.mp heq).symm
  | _ => exact h.elim

lemma TensorType.addressableSize_eq_error {type : TensorType} {e : DeviceError}
    (h : type.addressableSize = .error e) :
    type.byteSize? = none ∧ e = .invalidArgument (.unaddressable type) := by
  unfold addressableSize at h
  split at h
  · cases h
  · next hsize =>
    cases h
    exact ⟨hsize, rfl⟩

lemma Kernel.resultType_eq_error {k : Kernel} {types : List TensorType} {e : DeviceError}
    (h : k.resultType types = .error e) :
    (∃ fault, e = .operands fault) ∨ ∃ element, e = .unsupported k element := by
  unfold resultType at h
  split at h
  · cases h
    exact .inl ⟨_, rfl⟩
  split at h
  · cases h
    exact .inl ⟨_, rfl⟩
  split at h
  · cases h
    exact .inl ⟨_, rfl⟩
  split at h
  · cases h
    exact .inr ⟨_, rfl⟩
  · cases h

/-- What an instruction allocates can be addressed. -/
def Instruction.Addressable : Instruction → Prop
  | .allocate _ type _ => type.byteSize? ≠ none
  | .transfer .. | .deallocate .. | .compute .. => True

namespace RefusedFor

variable {instructions : List Instruction} {e : DeviceError}

lemma ne_invalidHandle (h : RefusedFor instructions e) : e.kind? ≠ some .invalidHandle := by
  cases h with
  | transient h => exact h.kind_ne nofun
  | size _ h =>
    obtain ⟨-, rfl⟩ := TensorType.addressableSize_eq_error h
    exact nofun
  | operands h =>
    rcases Kernel.resultType_eq_error h with ⟨_, rfl⟩ | ⟨_, rfl⟩
    · exact nofun
    · exact nofun

lemma ne_invalidArgument (h : RefusedFor instructions e)
    (hsizes : ∀ i ∈ instructions, i.Addressable) : e.kind? ≠ some .invalidArgument := by
  cases h with
  | transient h => exact h.kind_ne nofun
  | size hi h => exact absurd (TensorType.addressableSize_eq_error h).1 (hsizes _ hi)
  | operands h =>
    rcases Kernel.resultType_eq_error h with ⟨_, rfl⟩ | ⟨_, rfl⟩
    · exact nofun
    · exact nofun

end RefusedFor

namespace Machine

/-- The symbolic device has no state for which it may refuse a call. -/
lemma Stops.refusedFor {m m' : Machine Unit TensorType} {i : Instruction} {operation : Opcode}
    {cause : DeviceError} (h : m.Stops .symbolic i (.device operation cause) m')
    {instructions : List Instruction} (hi : i ∈ instructions) : RefusedFor instructions cause := by
  cases h with
  | plan hplan => exact absurd rfl (Instruction.kind_of_plan hplan)
  | @allocate output type residence e s hfresh hcall =>
    have hsize : type.addressableSize.map (fun _ => type) = .error cause := congrArg Prod.fst hcall
    cases haddressable : type.addressableSize with
    | ok size =>
      rw [haddressable] at hsize
      cases hsize
    | error e =>
      rw [haddressable] at hsize
      cases hsize
      exact .size hi haddressable
  | transfer _ _ _ hcall => cases hcall
  | deallocate _ hcall => cases hcall
  | compute _ _ _ hcall => exact .operands (congrArg Prod.fst hcall)

lemma refusedFor_of_stopped {instructions : List Instruction} {q : Machine Unit TensorType}
    {operation : Opcode} {cause : DeviceError}
    (h : (advance .symbolic instructions 0 q).stopped = some (.device operation cause)) :
    RefusedFor instructions cause := by
  rcases advance_cases .symbolic instructions 0 q with
    ⟨q', -, hadvance⟩ | ⟨done, i, rest, q', e, q'', rfl, -, hstops, hadvance⟩
  · rw [hadvance] at h
    cases h
  · rw [hadvance] at h
    cases h
    exact hstops.refusedFor (by simp)

end Machine

lemma Progress.stopped_of_status {σ η : Type} {progress : Progress σ η} {outputs : List TensorId}
    {record : Option Nat} {operation : Opcode} {cause : DeviceError}
    (h : progress.status outputs = .failed ⟨record, .device operation cause⟩) :
    progress.stopped = some (.device operation cause) := by
  unfold status at h
  split at h
  · next hstopped =>
    cases h
    exact hstopped
  · split at h <;> cases h

/-- The refusals at the end of a run have causes in the state of the device. -/
lemma HostDevice.transient_of_releaseAll {force : Bool} {handles : List (TensorId × HostTensor)}
    {d : HostDevice} (hlive : ∀ t ∈ handles, t.2.serial ∈ d.outstanding)
    (hserials : (handles.map (·.2.serial)).Nodup) :
    ∀ x ∈ (releaseAll provider force handles d).diagnostics, x.error.Transient := by
  induction handles generalizing d with
  | nil => exact nofun
  | cons input handles ih =>
    obtain ⟨id, t⟩ := input
    rw [List.map_cons, List.nodup_cons] at hserials
    obtain ⟨ht, hrest⟩ := List.forall_mem_cons.mp hlive
    rcases d.release_cases t force with ⟨hgone, -⟩ | ⟨-, answer, d', hcall, hcause, -, hout⟩
    · exact absurd ht hgone
    · have hleft : ∀ x ∈ handles, x.2.serial ∈ d'.outstanding := by
        intro x hx
        have hne : x.2.serial ≠ t.serial := by
          intro heq
          exact hserials.1 (heq ▸ List.mem_map_of_mem (f := (·.2.serial)) hx)
        rw [hout, List.mem_erase_of_ne hne]
        exact hrest x hx
      have htransient := ih hleft hserials.2
      have hcall : provider.release t force d = (answer, d') := hcall
      rw [releaseAll, hcall]
      cases answer with
      | ok _ => exact htransient
      | error e => exact List.forall_mem_cons.mpr ⟨hcause e rfl, htransient⟩

/-!
### Whole runs
-/

/-- The cause for which a device stopped the run, if one did. -/
def Status.deviceError? : Status → Option DeviceError
  | .failed ⟨_, .device _ cause⟩ => some cause
  | _ => none

/-- The causes for which a device refused calls, as the report tells them. -/
def Report.deviceErrors {η : Type} (r : Report η) : List DeviceError :=
  r.status.deviceError?.toList ++ r.diagnostics.map (·.error)

lemma Status.deviceError?_eq_some {status : Status} {cause : DeviceError}
    (h : status.deviceError? = some cause) :
    ∃ record operation, status = .failed ⟨record, .device operation cause⟩ := by
  unfold deviceError? at h
  split at h
  · cases h
    exact ⟨_, _, rfl⟩
  · cases h

lemma Report.refusedFor {η : Type} {r : Report η} {instructions : List Instruction}
    (hstatus : ∀ record operation cause,
      r.status = .failed ⟨record, .device operation cause⟩ → RefusedFor instructions cause)
    (hdiagnostics : ∀ x ∈ r.diagnostics, x.error.Transient) :
    ∀ e ∈ r.deviceErrors, RefusedFor instructions e := by
  intro e he
  rcases List.mem_append.mp he with he | he
  · obtain ⟨record, operation, heq⟩ := Status.deviceError?_eq_some (Option.mem_toList.mp he)
    exact hstatus record operation e heq
  · obtain ⟨x, hx, rfl⟩ := List.mem_map.mp he
    exact .transient (hdiagnostics x hx)

namespace Program

lemma refusedFor_of_verify {p : Program} {record : Option Nat} {operation : Opcode}
    {cause : DeviceError} (h : p.verify = .error ⟨record, .device operation cause⟩) :
    RefusedFor p.instructions cause := by
  rcases p.nodup_or_declare_eq_error with hdeclared | ⟨id, hrefused⟩
  · have hpredicted := p.predicted_of_nodup hdeclared
    rw [predicted_of_error h] at hpredicted
    exact Machine.refusedFor_of_stopped (Progress.stopped_of_status hpredicted.symm)
  · simp only [verify, hrefused] at h
    cases h

lemma refusedFor_of_accept {p : Program} {cfg : RunConfig} {supplied : List TensorId}
    {record : Option Nat} {operation : Opcode} {cause : DeviceError}
    (h : p.accept cfg supplied = .error ⟨record, .device operation cause⟩) :
    RefusedFor p.instructions cause := by
  unfold accept screen at h
  split at h
  · next hscreen =>
    cases h
    split at hscreen
    · exact refusedFor_of_verify hscreen
    · cases hscreen
  · split at h <;> cases h

lemma refusedFor_execute {p : Program} {cfg : RunConfig} {pool : Pool HostTensor} {d : HostDevice}
    (hstart : Machine.Mirrored ⟨pool, d⟩) :
    ∀ e ∈ (p.execute HostDevice.provider cfg pool d).1.deviceErrors,
      RefusedFor p.instructions e := by
  have hagrees := (hstart.advance p.instructions 0).agrees
  obtain ⟨q, hq⟩ := hstart.mirrors
  have hfollows := Machine.advance_follows Machine.step_follows_symbolic p.instructions 0 hq
  have hstatus := hfollows.status p.outputs fun m q h =>
    (missingOutput?_alike h.alike p.outputs).symm
  simp only [execute]
  generalize Machine.advance HostDevice.provider p.instructions 0 ⟨pool, d⟩ = progress
    at hagrees hstatus ⊢
  obtain ⟨-, -, hrest⟩ := progress.holdings_handOver cfg p.outputs
  have hkept : (progress.handOver cfg p.outputs).2.drain.1.Sublist
      progress.machine.pool.holdings := by
    change (progress.handOver cfg p.outputs).2.holdings.Sublist _
    rw [hrest]
    exact List.filter_sublist
  refine Report.refusedFor (fun record operation cause hrefused => ?_) ?_
  · rcases hstatus with hsame | ⟨n, e, hfailed, ⟨⟨_, _, rfl, htransient⟩, -⟩ |
      ⟨_, ⟨_, _, rfl, htransient⟩, -⟩⟩
    · exact Machine.refusedFor_of_stopped (Progress.stopped_of_status (hsame.symm.trans hrefused))
    · cases hfailed.symm.trans hrefused
      exact .transient htransient
    · cases hfailed.symm.trans hrefused
      exact .transient htransient
  · refine HostDevice.transient_of_releaseAll (fun t ht => ?_) ?_
    · obtain ⟨e, he, rfl⟩ := List.mem_map.mp (hkept.subset ht)
      exact hagrees.outstanding e he
    · have hserials := hagrees.serials
      have hholdings : progress.machine.pool.holdings.map (·.2.serial) =
          progress.machine.pool.live.map (·.handle.serial) := by
        simp [Pool.holdings, Function.comp_def]
      rw [← hholdings] at hserials
      exact hserials.sublist (hkept.map _)

/-- Supplied handles that are outstanding and on the host side agree with a pool that takes them. -/
lemma mirrored_inputs {d : HostDevice} {inputs : List (TensorId × HostTensor)}
    (hids : (inputs.map Prod.fst).Nodup)
    (hlive : ∀ input ∈ inputs, input.2.serial ∈ d.outstanding)
    (hside : ∀ input ∈ inputs, input.2.location = .host)
    (hledger : HostDevice.Ledger d (inputs.map Prod.snd)) :
    Machine.Mirrored ⟨.ofInputs inputs, d⟩ := by
  let p : Program := ⟨inputs.map fun input => ⟨input.1, input.2.type⟩, [], []⟩
  have hdeclared : p.inputs.map (·.id) = inputs.map Prod.fst := by simp [p, Function.comp_def]
  have hsupply : p.HostSupply d inputs :=
    ⟨⟨hids, fun id => by rw [hdeclared]⟩, hlive, hside, fun input => List.mem_map_of_mem⟩
  refine ⟨?_, _, mirrors_inputs (hdeclared ▸ hids) hsupply hledger⟩
  rwa [Pool.ids_ofInputs]

lemma refusedFor_reject {cfg : RunConfig} {fault : Fault} {surviving : List (TensorId × State)}
    {inputs : List (TensorId × HostTensor)} {d : HostDevice} {instructions : List Instruction}
    (hlive : ∀ input ∈ inputs, input.2.serial ∈ d.outstanding)
    (hledger : HostDevice.Ledger d (inputs.map Prod.snd))
    (hfault : ∀ record operation cause, fault = ⟨record, .device operation cause⟩ →
      RefusedFor instructions cause) :
    ∀ e ∈ (reject HostDevice.provider cfg fault surviving inputs d).1.deviceErrors,
      RefusedFor instructions e := by
  have hserials : (inputs.map (·.2.serial)).Nodup := by
    simpa [Function.comp_def] using hledger.distinct
  refine Report.refusedFor (fun record operation cause hstatus => ?_)
    (HostDevice.transient_of_releaseAll hlive hserials)
  exact hfault record operation cause (Status.failed.inj hstatus)

lemma refusedFor_run (cfg : RunConfig) (p : Program) {d : HostDevice}
    {inputs : List (TensorId × HostTensor)}
    (hlive : ∀ input ∈ inputs, input.2.serial ∈ d.outstanding)
    (hside : ∀ input ∈ inputs, input.2.location = .host)
    (hledger : HostDevice.Ledger d (inputs.map Prod.snd)) :
    ∀ e ∈ (p.run HostDevice.provider cfg inputs d).1.deviceErrors,
      RefusedFor p.instructions e := by
  unfold run
  cases haccept : p.accept cfg (inputs.map Prod.fst) with
  | error fault =>
    refine refusedFor_reject hlive hledger ?_
    rintro record operation cause rfl
    exact refusedFor_of_accept haccept
  | ok _ =>
    have hids := (suppliedBy_of_accept haccept).1
    simp only [Pool.bindInputs_of_nodup inputs hids]
    exact refusedFor_execute (mirrored_inputs hids hlive hside hledger)

lemma addressable_of_decode {bytes : Bytes} {p : Program} (h : decode bytes = .ok p) :
    ∀ i ∈ p.instructions, i.Addressable := by
  obtain ⟨c, hread, -⟩ := read_of_decode_ok h
  obtain ⟨_, ⟨-, _, records, hrecords, -⟩, -⟩ := written_of_read hread
  generalize p.instructions = instructions at hrecords
  induction hrecords with
  | nil => exact nofun
  | cons hi _ ih =>
    obtain ⟨r, _, hframed, -⟩ := hi
    refine List.forall_mem_cons.mpr ⟨?_, ih⟩
    cases hframed with
    | allocate _ _ _ _ hsize => exact hsize
    | inPlace | ontoItself | renamed | deallocate | compute => trivial

/-- The machine of a run behind so many of its instructions, or where it stopped in them. -/
def machineAfter {σ η : Type} (P : Provider σ η) (p : Program) (inputs : List (TensorId × η))
    (s : σ) (n : Nat) : Machine σ η :=
  (Machine.advance P (p.instructions.take n) 0 ⟨(Pool.bindInputs inputs .empty).2, s⟩).machine

/-- In a run on a host device with live handles that it has issued, the pool and the device agree
before and behind every instruction. So no call is refused for its handle, neither in the course of
the run nor at its end, and none for its arguments if the program was decoded. -/
theorem run_agrees_with_host (cfg : RunConfig) (d : HostDevice) (held : List HostTensor)
    (hreached : d.Reached held) (inputs : List (TensorId × HostTensor))
    (hheld : (inputs.map Prod.snd).Subperm held)
    (hlive : ∀ input ∈ inputs, input.2.serial ∈ d.outstanding)
    (hside : ∀ input ∈ inputs, input.2.location = .host) :
    (∀ p : Program,
      (p.accept cfg (inputs.map Prod.fst) = .ok () →
        ∀ n, (p.machineAfter HostDevice.provider inputs d n).Agrees) ∧
      (∀ e ∈ (p.run HostDevice.provider cfg inputs d).1.deviceErrors,
        e.kind? ≠ some .invalidHandle) ∧
      ∀ bytes, decode bytes = .ok p →
        ∀ e ∈ (p.run HostDevice.provider cfg inputs d).1.deviceErrors,
          e.kind? ≠ some .invalidArgument) ∧
    ∀ bytes : Bytes, ∀ e ∈ (runBytes HostDevice.provider cfg bytes inputs d).1.deviceErrors,
      e.kind? ≠ some .invalidHandle ∧ e.kind? ≠ some .invalidArgument := by
  have hledger := hreached.ledger.of_subperm hheld
  have hrun := fun p : Program => p.refusedFor_run cfg hlive hside hledger
  refine ⟨fun p => ⟨fun haccept n => ?_, fun e he => (hrun p e he).ne_invalidHandle,
    fun bytes hdecode e he => (hrun p e he).ne_invalidArgument (addressable_of_decode hdecode)⟩,
    fun bytes => ?_⟩
  · have hids := (suppliedBy_of_accept haccept).1
    rw [machineAfter, Pool.bindInputs_of_nodup inputs hids]
    exact ((mirrored_inputs hids hlive hside hledger).advance _ 0).agrees
  · unfold runBytes
    cases hdecode : decode bytes with
    | error cause =>
      intro e he
      have hrefused : RefusedFor [] e := refusedFor_reject hlive hledger (by simp) e he
      exact ⟨hrefused.ne_invalidHandle, hrefused.ne_invalidArgument nofun⟩
    | ok p =>
      intro e he
      exact ⟨(hrun p e he).ne_invalidHandle,
        (hrun p e he).ne_invalidArgument (addressable_of_decode hdecode)⟩

/-- The release of a pinned tensor is refused in the course of the run, and another one at its
end. -/
theorem run_agrees_with_host_pinned :
    let p : Program := ⟨[⟨1, ⟨.u8, [2]⟩⟩, ⟨2, ⟨.u8, [1]⟩⟩], [],
      [.transfer .device 1 (.renamed 3), .deallocate 3 false]⟩
    let t : HostTensor := ⟨⟨1, ⟨.u8, [2]⟩, .host⟩, [7, 9]⟩
    let x : HostTensor := ⟨⟨2, ⟨.u8, [1]⟩, .host⟩, [5]⟩
    let made := ((HostDevice.new 64 64).hostTensor t.type t.bytes).2.hostTensor x.type x.bytes
    let d := (made.2.pin 1).pin 2
    let cfg : RunConfig := { forceTeardown := false }
    d.Reached [x, t] ∧ p.accept cfg [1, 2] = .ok () ∧
      (∀ n, (p.machineAfter HostDevice.provider [(1, t), (2, x)] d n).Agrees) ∧
      (p.run HostDevice.provider cfg [(1, t), (2, x)] d).1.deviceErrors =
        [.pendingReferences 1, .pendingReferences 2] ∧
      ∀ e ∈ (p.run HostDevice.provider cfg [(1, t), (2, x)] d).1.deviceErrors,
        e.kind? ≠ some .invalidHandle := by
  intro p t x made d cfg
  have hnew : HostDevice.Reached (.new 64 64) [] := .new 64 64
  have hreached : d.Reached [x, t] :=
    (((hnew.allocate t.type .host (some t.bytes)).allocate x.type .host (some x.bytes)).pin 1).pin 2
  have haccept : p.accept cfg [1, 2] = .ok () := by decide
  have hagrees := (run_agrees_with_host cfg d [x, t] hreached [(1, t), (2, x)]
    (List.Perm.swap x t []).subperm (by decide) (by decide)).1 p
  exact ⟨hreached, haccept, hagrees.1 haccept, by decide, hagrees.2.1⟩

end Program

end TensorMachine
