import TensorMachine.Proofs.HostAgreement
import TensorMachine.Proofs.HostBalance
import TensorMachine.Proofs.PoolHistory

/-!
# There and back

A tensor that changes sides in place and comes back leaves no trace. Each layer undoes what it has
done on the way there: the budget gets back what it has reserved or reserves again what it got back,
the handle stands on its old side, and the pool has the old handle at the old place. The way back is
never too narrow, since the room that a tensor has left is still there.
-/

namespace TensorMachine

/-- What was given back can be reserved again. -/
lemma Budget.reserve_giveBack {b : Budget} {size : Nat} (hused : size ≤ b.used.toNat)
    (hlimit : b.used ≤ b.limit) : (b.giveBack size).reserve size = .ok b := by
  have hsum : (b.giveBack size).used.toNat + size = b.used.toNat := by
    rw [used_giveBack hused]
    exact Nat.sub_add_cancel hused
  rw [reserve_eq_ok_iff, hsum, UInt64.ofNat_toNat]
  exact ⟨UInt64.le_iff_toNat_le.mp hlimit, rfl⟩

namespace HostDevice

variable {budget : UInt64} {maxAllocation : Nat} {d d' : HostDevice} {t t' : HostTensor}
  {side : Residence}

/-- While the tensor is on the device, its bytes are in use there, within the limit. -/
def Pays (d : HostDevice) (t : HostTensor) : Prop :=
  t.location = .device → t.bytes.length ≤ d.memory.used.toNat ∧ d.memory.used ≤ d.memory.limit

/-- A device pays for all tensors that it has issued and not got back. -/
lemma History.pays {tensors : List HostTensor} (h : History budget maxAllocation d tensors)
    (ht : t ∈ tensors) : d.Pays t := by
  intro hside
  have hcounts := h.accounts.books.counts
  have hle := footprint_le_deviceBytes (List.mem_append_left d.deferred ht)
  rw [HostTensor.footprint, hside, ← hcounts.used] at hle
  refine ⟨hle, ?_⟩
  rw [UInt64.le_iff_toNat_le, hcounts.used, hcounts.limit]
  exact hcounts.within

lemma moveMemory_back {memory : Budget} (hpays : d.Pays t) (hside : t.location = side.opposite)
    (hmove : moveMemory d.memory side t.bytes.length = .ok memory) :
    moveMemory memory side.opposite t.bytes.length = .ok d.memory := by
  cases side with
  | device => exact congrArg Except.ok (Budget.giveBack_of_reserve hmove)
  | host =>
    cases hmove
    obtain ⟨hused, hlimit⟩ := hpays hside
    exact Budget.reserve_giveBack hused hlimit

lemma transfer_of_checks {memory : Budget} (harmed : transferCall side ∉ d.armed)
    (hlive : t.serial ∈ d.outstanding) (hside : t.location = side.opposite)
    (hmove : moveMemory d.memory side t.bytes.length = .ok memory) :
    d.transfer side t = (.ok (), { t with location := side }, { d with memory := memory }) := by
  have hprepare : d.prepareTransfer side t = .ok memory := by
    rw [prepareTransfer, checkLive_eq_ok_iff.mpr hlive, checkLocation_eq_ok_iff.mpr hside]
    exact hmove
  rw [transfer, fire?_of_not_mem harmed, hprepare]

/-- The transfer back is granted and restores the tensor and the whole device. -/
theorem transfer_back (hpays : d.Pays t) (hcall : d.transfer side t = (.ok (), t', d'))
    (harmed : transferCall side.opposite ∉ d.armed) :
    d'.transfer side.opposite t' = (.ok (), t, d) := by
  rcases transfer_outcome d side t with ⟨e, _, -, hanswer⟩ | ⟨memory, -, hprepare, hanswer⟩
  · cases hcall.symm.trans hanswer
  · cases hcall.symm.trans hanswer
    obtain ⟨hlive, hside, hmove⟩ := prepareTransfer_eq_ok hprepare
    have hmemory := moveMemory_back hpays hside hmove
    have hreturn := transfer_of_checks (d := { d with memory := memory })
      (t := { t with location := side }) harmed hlive (Residence.opposite_opposite side).symm
      hmemory
    rw [hreturn, ← hside]

end HostDevice

namespace Machine

/-- A transfer in place that the device grants goes through. -/
lemma step_inPlace {σ η : Type} {P : Provider σ η} {m : Machine σ η} {e : Entry η}
    {side : Residence} {handle : η} {s : σ} (hfind : m.pool.find? e.id = some e)
    (hside : e.residence = side.opposite)
    (hcall : P.transfer side e.handle m.device = (.ok (), handle, s)) :
    m.step P (.transfer side e.id .inPlace) = (.ok (), ⟨m.pool.place e.id handle side, s⟩) := by
  have hcheck := Pool.checkTransition_of_opposite hfind hside
  have hplan : Instruction.plan m.pool (.transfer side e.id .inPlace) =
      .ok (.transfer side e .inPlace) := by
    rw [Instruction.plan, hcheck]
    rfl
  rw [step_of_plan_ok P hplan]
  simp only [Action.outcome, Action.carryOut, hcall]
  rfl

/-- Whichever tensor goes to the other side in place, the way back is open unless the device is
armed to fail there, and it leads to the machine as it was, with all of its pool and its device. -/
def Returns (m : Machine HostDevice HostTensor) : Prop :=
  ∀ side id m', m.step HostDevice.provider (.transfer side id .inPlace) = (.ok (), m') →
    HostDevice.transferCall side.opposite ∉ m.device.armed →
      m'.step HostDevice.provider (.transfer side.opposite id .inPlace) = (.ok (), m)

variable {m : Machine HostDevice HostTensor}

lemma returns_of_pays (hids : m.pool.ids.Nodup)
    (hpays : ∀ e ∈ m.pool.live, m.device.Pays e.handle) : m.Returns := by
  intro side id m' hstep harmed
  rcases step_cases HostDevice.provider (.transfer side id .inPlace) m with
    ⟨_, hanswer, hpasses⟩ | ⟨e, _, hanswer, -⟩
  · cases hstep.symm.trans hanswer
    cases hpasses with
    | @transfer _ entry _ handle d' hfind hside _ hcall =>
      have hback : HostDevice.provider.transfer side.opposite handle d' =
          (.ok (), entry.handle, m.device) :=
        HostDevice.transfer_back (hpays entry (Pool.mem_of_find? hfind)) hcall harmed
      have hplaced := Pool.find?_placed hfind handle side
      have hreturn := step_inPlace (m := ⟨m.pool.place entry.id handle side, d'⟩)
        (e := ⟨entry.id, handle, side⟩) hplaced (Residence.opposite_opposite side).symm hback
      rw [Pool.place_place, ← hside, Pool.place_self hids hfind] at hreturn
      rw [← hside]
      exact hreturn
  · cases hstep.symm.trans hanswer

lemma Lends.returns {budget : UInt64} {maxAllocation : Nat} {others : List HostTensor}
    (h : m.Lends budget maxAllocation others) : m.Returns := by
  obtain ⟨listed, hhistory, hlisted⟩ := h.lent
  refine returns_of_pays h.nodup_ids fun e he => hhistory.pays (hlisted.symm.subset ?_)
  exact List.mem_append_left others (List.mem_map_of_mem he)

/-- On a host device that is given its own handles only, a transfer in place and the one back
restore everything, whatever a pool with handles of the device has been through, and at every point
of every run. -/
theorem inPlace_returns {budget : UInt64} {maxAllocation : Nat} {d : HostDevice}
    {tensors : List HostTensor} (hhistory : HostDevice.History budget maxAllocation d tensors) :
    (∀ calls : List (Pool.Call HostTensor),
      (∀ e ∈ (Pool.history calls).2.live, e.handle ∈ tensors) →
        Returns ⟨(Pool.history calls).2, d⟩) ∧
    ∀ (cfg : RunConfig) (p : Program) (inputs : List (TensorId × HostTensor)),
      (inputs.map Prod.snd).Subperm tensors → p.accept cfg (inputs.map Prod.fst) = .ok () →
        ∀ n, (p.machineAfter HostDevice.provider inputs d n).Returns := by
  refine ⟨fun calls hheld => ?_, fun cfg p inputs hinputs haccept n => ?_⟩
  · exact returns_of_pays (Pool.recounted_history calls).nodup_ids
      fun e he => hhistory.pays (hheld e he)
  · have hids := (Program.suppliedBy_of_accept haccept).1
    obtain ⟨l, hl, hsub⟩ := List.subperm_iff.mp hinputs
    obtain ⟨others, hothers⟩ := hsub.exists_perm_append
    have hstart : Lends budget maxAllocation others ⟨Pool.ofInputs inputs, d⟩ :=
      .ofInputs hids ⟨tensors, hhistory, hl.symm.trans hothers⟩
    rw [Program.machineAfter, Pool.bindInputs_of_nodup inputs hids]
    exact (hstart.advance _ 0).returns

/-- The memory of the device is full of the two bytes of a pinned tensor, before it goes to the host
side and when it is back. -/
theorem inPlace_returns_pinned :
    let x : HostTensor := ⟨⟨1, ⟨.u8, [1]⟩, .host⟩, [5]⟩
    let t : HostTensor := ⟨⟨2, ⟨.u8, [2]⟩, .device⟩, [0, 0]⟩
    let made := ((HostDevice.new 2 64).hostTensor x.type x.bytes).2.allocate t.type .device none
    let d := made.2.pin 2
    let calls : List (Pool.Call HostTensor) :=
      [.insert 7 t (.resident .device), .insert 3 x (.resident .host), .consume 3 4]
    let m : Machine HostDevice HostTensor := ⟨(Pool.history calls).2, d⟩
    let there := m.step HostDevice.provider (.transfer .host 7 .inPlace)
    let p : Program := ⟨[⟨3, x.type⟩], [], [.allocate 4 ⟨.f32, [6]⟩ .host]⟩
    HostDevice.History 2 64 d [t, x] ∧ (∀ e ∈ (Pool.history calls).2.live, e.handle ∈ [t, x]) ∧
      d.memory.available? = some 0 ∧
      there.1 = .ok () ∧ there.2.device.memory.available? = some 2 ∧
      there.2.step HostDevice.provider (.transfer .device 7 .inPlace) = (.ok (), m) ∧
      p.accept {} [3] = .ok () ∧ (p.machineAfter HostDevice.provider [(3, x)] d 1).Returns := by
  intro x t made d calls m there p
  have hnew : HostDevice.History 2 64 (.new 2 64) [] := .new
  have hhistory : HostDevice.History 2 64 d [t, x] :=
    ((hnew.allocate x.type .host (some x.bytes)).allocate t.type .device none).pin 2
  have hheld : ∀ e ∈ (Pool.history calls).2.live, e.handle ∈ [t, x] := by decide
  have hthere : there.1 = .ok () := by decide
  have haccept : p.accept {} [3] = .ok () := by decide
  obtain ⟨hpool, hrun⟩ := inPlace_returns hhistory
  have hback := hpool calls hheld .host 7 there.2 (Prod.ext hthere rfl) (by decide)
  have hinputs : [x].Subperm [t, x] := (List.sublist_cons_self t [x]).subperm
  exact ⟨hhistory, hheld, by decide, hthere, by decide, hback, haccept,
    hrun {} p [(3, x)] hinputs haccept 1⟩

end Machine

end TensorMachine
