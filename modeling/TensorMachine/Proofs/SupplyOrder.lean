import TensorMachine.Proofs.Atomicity
import TensorMachine.Proofs.Following
import TensorMachine.Proofs.Prediction

/-!
# The order of supply

A pool answers by identifiers, so that no step can tell in which order the inputs were supplied. The
order shows where a pool is listed: supplied identifiers that are still live stand in front, in one
order or another, and behind them stands what the instructions have introduced.
-/

namespace TensorMachine

variable {σ η : Type}

/-!
### Lists
-/

/-- The lists are equal but for the order of the elements with certain keys, which are in front. -/
def FrontPerm {α : Type} (key : α → TensorId) (ids : List TensorId) (l l' : List α) : Prop :=
  ∃ front front' back, l = front ++ back ∧ l' = front' ++ back ∧ front.Perm front' ∧
    (∀ a ∈ front, key a ∈ ids) ∧ ∀ a ∈ back, key a ∉ ids

namespace FrontPerm

variable {α β : Type} {key : α → TensorId} {ids : List TensorId} {l l' : List α}

lemma of_perm (h : l.Perm l') (hids : ∀ a ∈ l, key a ∈ ids) : FrontPerm key ids l l' :=
  ⟨l, l', [], (List.append_nil l).symm, (List.append_nil l').symm, h, hids, nofun⟩

lemma concat (h : FrontPerm key ids l l') {a : α} (ha : key a ∉ ids) :
    FrontPerm key ids (l ++ [a]) (l' ++ [a]) := by
  obtain ⟨front, front', back, rfl, rfl, hperm, hfront, hback⟩ := h
  refine ⟨front, front', back ++ [a], List.append_assoc .., List.append_assoc .., hperm, hfront,
    fun x hx => ?_⟩
  rcases List.mem_append.mp hx with hx | hx
  · exact hback x hx
  · exact List.mem_singleton.mp hx ▸ ha

lemma map (h : FrontPerm key ids l l') {key' : β → TensorId} {g : α → β}
    (hkey : ∀ a, key' (g a) = key a) : FrontPerm key' ids (l.map g) (l'.map g) := by
  obtain ⟨front, front', back, rfl, rfl, hperm, hfront, hback⟩ := h
  refine ⟨_, _, _, List.map_append, List.map_append, hperm.map g, ?_, ?_⟩
  · exact List.forall_mem_map.mpr fun a ha => (hkey a).symm ▸ hfront a ha
  · exact List.forall_mem_map.mpr fun a ha => (hkey a).symm ▸ hback a ha

lemma filter (h : FrontPerm key ids l l') (keep : α → Bool) :
    FrontPerm key ids (l.filter keep) (l'.filter keep) := by
  obtain ⟨front, front', back, rfl, rfl, hperm, hfront, hback⟩ := h
  refine ⟨_, _, _, List.filter_append .., List.filter_append .., hperm.filter keep, ?_, ?_⟩
  · exact fun a ha => hfront a (List.mem_of_mem_filter ha)
  · exact fun a ha => hback a (List.mem_of_mem_filter ha)

end FrontPerm

/-!
### Pools
-/

namespace Pool

/-- The pools give the same answers and list the same tensors, but that those in front, which have
supplied identifiers, may stand in another order. -/
structure Rearranged (supplied : List TensorId) (p q : Pool η) : Prop where
  alike : p.Alike id q
  known : ∀ x ∈ supplied, p.isKnown x = true
  live : FrontPerm Entry.id supplied p.live q.live

namespace Rearranged

variable {supplied : List TensorId} {p q : Pool η} {id : TensorId}

lemma ofInputs {inputs others : List (TensorId × η)} (h : inputs.Perm others)
    (hnodup : (inputs.map Prod.fst).Nodup) :
    Rearranged (inputs.map Prod.fst) (ofInputs inputs) (ofInputs others) where
  alike := by
    have hids := h.map Prod.fst
    refine alike_ofInputs _ (hids.nodup_iff.mp hnodup) (fun input hinput => ?_) fun x => ?_
    · exact h.mem_iff.mp hinput
    · exact hids.mem_iff.mpr
  known x hx := by
    rw [isKnown, (contains_iff_mem_ids _ x).mpr (by rwa [ids_ofInputs]), Bool.true_or]
  live := by
    refine .of_perm (h.map _) fun e he => ?_
    rw [← ids_ofInputs]
    exact List.mem_map_of_mem he

lemma introduce (h : Rearranged supplied p q) (hfresh : p.isKnown id = false) (handle : η)
    (side : Residence) :
    Rearranged supplied (p.introduce id handle side) (q.introduce id handle side) where
  alike := h.alike.introduce id handle side
  known x hx := (isKnown_introduce_iff p id x handle side).mpr (.inl (h.known x hx))
  live := by
    apply h.live.concat
    intro hid
    rw [h.known id hid] at hfresh
    cases hfresh

lemma place (h : Rearranged supplied p q) (id : TensorId) (handle : η) (side : Residence) :
    Rearranged supplied (p.place id handle side) (q.place id handle side) where
  alike := h.alike.place id handle side
  known x hx := (isKnown_place p id x handle side).trans (h.known x hx)
  live := by
    apply h.live.map
    intro e
    by_cases he : e.id = id <;> simp [he]

lemma retire (h : Rearranged supplied p q) (hknown : p.isKnown id = true) (fate : Fate) :
    Rearranged supplied (p.retire id fate) (q.retire id fate) where
  alike := h.alike.retire id fate
  known x hx := (isKnown_retire hknown x fate).trans (h.known x hx)
  live := h.live.filter _

lemma move (h : Rearranged supplied p q) (destination : Residence) {entry : Entry η}
    (hfind : p.find? entry.id = some entry) (handle : η) {target : Target}
    (hfresh : ∀ output ∈ target.ids, p.isKnown output = false) :
    Rearranged supplied (Action.move p destination entry.id handle target)
      (Action.move q destination entry.id handle target) := by
  have hknown := isKnown_of_find? hfind
  cases target with
  | inPlace => exact h.place entry.id handle destination
  | renamed output =>
    refine (h.retire hknown (.consumed output)).introduce ?_ handle destination
    rw [isKnown_retire hknown]
    exact hfresh output (by simp [Target.ids])

end Rearranged

end Pool

/-!
### Runs
-/

/-- The machines differ in the order in which the inputs were supplied. -/
structure Machine.Resupplied (supplied : List TensorId) (m q : Machine σ η) : Prop where
  device : q.device = m.device
  pool : m.pool.Rearranged supplied q.pool

lemma Action.map_id (action : Action η) : action.map id = action := by
  cases action with
  | compute kernel operands output => rw [Action.map, List.map_id]
  | allocate | transfer | release => rfl

/-- The device is asked the same, and what it answers is put into both pools. -/
lemma Action.outcome_resupplied (P : Provider σ η) {supplied : List TensorId} {m : Machine σ η}
    {other : Pool η} (h : m.pool.Rearranged supplied other) (operation : Opcode)
    {action : Action η} (hlegal : action.Legal m.pool) :
    Machine.StepMatches (Machine.Resupplied supplied) (fun _ => False)
      (action.outcome P operation m) (action.outcome P operation ⟨other, m.device⟩) := by
  cases action with
  | allocate output type residence =>
    simp only [outcome, carryOut]
    rcases P.allocate type residence m.device with ⟨_ | handle, s⟩
    · exact .related _ ⟨rfl, h⟩
    · exact .related _ ⟨rfl, h.introduce hlegal handle residence⟩
  | transfer destination entry target =>
    obtain ⟨hfind, -, hfresh⟩ := hlegal
    simp only [outcome, carryOut]
    rcases P.transfer destination entry.handle m.device with ⟨_ | _, handle, s⟩
    · exact .related _ ⟨rfl, h.place entry.id handle entry.residence⟩
    · exact .related _ ⟨rfl, h.move destination hfind handle hfresh⟩
  | release entry force =>
    have hretired := h.retire (Pool.isKnown_of_find? hlegal) .freed
    simp only [outcome, carryOut]
    rcases P.release entry.handle force m.device with ⟨_ | _, s⟩
    · exact .related _ ⟨rfl, hretired⟩
    · exact .related _ ⟨rfl, hretired⟩
  | compute kernel operands output =>
    simp only [outcome, carryOut]
    rcases P.compute kernel operands m.device with ⟨_ | handle, s⟩
    · exact .related _ ⟨rfl, h⟩
    · exact .related _ ⟨rfl, h.introduce hlegal.1 handle .device⟩

lemma Machine.Resupplied.step {P : Provider σ η} {supplied : List TensorId} {m q : Machine σ η}
    (h : m.Resupplied supplied q) (i : Instruction) :
    StepMatches (Resupplied supplied) (fun _ => False) (m.step P i) (q.step P i) := by
  have hq := Instruction.plan_alike h.pool.alike i
  obtain ⟨other, s⟩ := q
  obtain ⟨rfl, hpool⟩ := h
  cases hplan : i.plan m.pool with
  | error e =>
    rw [hplan] at hq
    rw [step_of_plan_error P hplan, step_of_plan_error P hq]
    exact .related _ ⟨rfl, hpool⟩
  | ok action =>
    rw [hplan] at hq
    rw [step_of_plan_ok P hplan, step_of_plan_ok P hq, Action.map_id]
    exact Action.outcome_resupplied P hpool i.opcode (Instruction.legal_of_plan hplan)

/-- Instructions that go through make nothing that was known before the first of them. -/
lemma Machine.Runs.outputs_not_known {P : Provider σ η} {m m' : Machine σ η}
    {instructions : List Instruction} (h : Runs P m instructions m') :
    ∀ i ∈ instructions, ∀ id ∈ i.outputs, m.pool.isKnown id = false := by
  induction h with
  | nil => exact nofun
  | cons h _ ih =>
    refine List.forall_mem_cons.mpr ⟨fun id hid => (h.introduced id hid).1, fun i hi id hid => ?_⟩
    rw [Bool.eq_false_iff]
    intro hknown
    have hlater := ih i hi id hid
    rw [(h.isKnown_iff id).mpr (.inl hknown)] at hlater
    cases hlater

lemma Machine.outputs_of_executed (P : Provider σ η) (instructions : List Instruction)
    (m : Machine σ η) :
    ∀ i ∈ instructions.take (advance P instructions 0 m).executed, ∀ id ∈ i.outputs,
      m.pool.isKnown id = false := by
  rcases advance_cases P instructions 0 m with
    ⟨m', hruns, hadvance⟩ | ⟨done, i, rest, before, e, m', rfl, hruns, hstops, hadvance⟩
  · rw [hadvance, Nat.zero_add, List.take_length]
    exact hruns.outputs_not_known
  · rw [hadvance, Nat.zero_add, List.take_left]
    exact hruns.outputs_not_known

/-- Pools that are alike hand the same over. -/
lemma Pool.fst_takeOutputs_alike {p q : Pool η} (h : p.Alike id q) (outputs : List TensorId) :
    (takeOutputs outputs q).1 = (takeOutputs outputs p).1 := by
  induction outputs generalizing p q with
  | nil => rfl
  | cons x rest ih =>
    have hcheck := h.checkTransition x .freed
    rw [takeOutputs, takeOutputs, remove, remove, hcheck]
    cases p.checkTransition x .freed with
    | error e => exact ih h
    | ok entry => exact congrArg ((x, entry.handle) :: ·) (ih (h.retire x .freed))

/-- The reports are of one outcome, and list the same surviving tensors, but that the supplied ones
among them, which stand in front, may stand in another order. -/
structure Report.Resupplied (supplied : List TensorId) (r r' : Report η) : Prop where
  status : r'.status = r.status
  executed : r'.executed = r.executed
  outputs : r'.outputs = r.outputs
  surviving : FrontPerm Prod.fst supplied r.surviving r'.surviving

namespace Program

lemma execute_resupplied (P : Provider σ η) (cfg : RunConfig) (p : Program)
    {supplied : List TensorId} {inputs others : Pool η} (h : inputs.Rearranged supplied others)
    (s : σ) :
    Report.Resupplied supplied (p.execute P cfg inputs s).1 (p.execute P cfg others s).1 := by
  have hstep : ∀ i (m q : Machine σ η), m.Resupplied supplied q →
      Machine.StepMatches (Machine.Resupplied supplied) (fun _ => False) (m.step P i)
        (q.step P i) := fun i _ _ h => h.step i
  have hmatches := Machine.advance_matches hstep p.instructions 0 (m := ⟨inputs, s⟩)
    (q := ⟨others, s⟩) ⟨rfl, h⟩
  unfold execute
  generalize Machine.advance P p.instructions 0 ⟨inputs, s⟩ = first at hmatches ⊢
  generalize Machine.advance P p.instructions 0 ⟨others, s⟩ = second at hmatches ⊢
  cases hmatches with
  | @related n stopped m q h =>
    have hstatus : Progress.status ⟨n, stopped, q⟩ p.outputs =
        Progress.status ⟨n, stopped, m⟩ p.outputs := by
      simp only [Progress.status, missingOutput?_alike h.pool.alike]
    refine ⟨hstatus, rfl, ?_, h.pool.live.map fun e => rfl⟩
    simp only [Progress.handOver, hstatus]
    split
    · split
      · exact Pool.fst_takeOutputs_alike h.pool.alike p.outputs
      · rfl
    · rfl
  | excused hfalse => exact hfalse.elim

lemma suppliedBy_of_perm {p : Program} {supplied others : List TensorId} (h : supplied.Perm others)
    (hsupplied : p.SuppliedBy supplied) : p.SuppliedBy others :=
  ⟨h.nodup_iff.mp hsupplied.1, fun id => h.mem_iff.symm.trans (hsupplied.2 id)⟩

/-- Inputs that are supplied in another order are bound if they were bound in the first, and the run
takes the same course to the same outputs. Only the supplied tensors that survive may be listed in
another order; they stand in front of those that the executed instructions have introduced, which
have other identifiers. -/
theorem run_of_perm (P : Provider σ η) (cfg : RunConfig) (p : Program)
    {inputs others : List (TensorId × η)} (h : inputs.Perm others) (s : σ) :
    (p.checkBindings (inputs.map Prod.fst) = .ok () ↔
      p.checkBindings (others.map Prod.fst) = .ok ()) ∧
    (p.checkBindings (inputs.map Prod.fst) = .ok () →
      Report.Resupplied (inputs.map Prod.fst) (p.run P cfg inputs s).1 (p.run P cfg others s).1 ∧
      ∀ i ∈ p.instructions.take (p.run P cfg inputs s).1.executed, ∀ id ∈ i.outputs,
        id ∉ inputs.map Prod.fst) := by
  have hids := h.map Prod.fst
  refine ⟨?_, fun hbound => ?_⟩
  · rw [checkBindings_eq_ok_iff, checkBindings_eq_ok_iff]
    exact ⟨suppliedBy_of_perm hids, suppliedBy_of_perm hids.symm⟩
  have hsupplied := (p.checkBindings_eq_ok_iff _).mp hbound
  have hothers := suppliedBy_of_perm hids hsupplied
  have hbound' := (p.checkBindings_eq_ok_iff _).mpr hothers
  unfold run accept
  cases p.screen cfg with
  | error fault =>
    exact ⟨⟨rfl, rfl, rfl, [], [], [], rfl, rfl, .refl [], nofun, nofun⟩, nofun⟩
  | ok _ =>
    simp only [hbound, hbound', Pool.bindInputs_of_nodup inputs hsupplied.1,
      Pool.bindInputs_of_nodup others hothers.1]
    have hpools := Pool.Rearranged.ofInputs h hsupplied.1
    refine ⟨p.execute_resupplied P cfg hpools s, fun i hi id hid hmem => ?_⟩
    have hnew := Machine.outputs_of_executed P p.instructions ⟨.ofInputs inputs, s⟩ i hi id hid
    rw [hpools.known id hmem] at hnew
    cases hnew

/-- Two tensors that are supplied in either order to a program that makes a third and hands the
second back. -/
theorem run_of_perm_swapped :
    let p : Program := ⟨[⟨1, ⟨.u8, [1]⟩⟩, ⟨2, ⟨.u8, [1]⟩⟩], [2], [.allocate 3 ⟨.u8, [1]⟩ .host]⟩
    let made := ((HostDevice.new 8 8).hostTensor ⟨.u8, [1]⟩ [7]).2.hostTensor ⟨.u8, [1]⟩ [9]
    let a : TensorId × HostTensor := (1, ⟨⟨1, ⟨.u8, [1]⟩, .host⟩, [7]⟩)
    let b : TensorId × HostTensor := (2, ⟨⟨2, ⟨.u8, [1]⟩, .host⟩, [9]⟩)
    let report := fun inputs => (p.run HostDevice.provider {} inputs made.2).1
    Report.Resupplied [1, 2] (report [a, b]) (report [b, a]) ∧ (report [a, b]).executed = 1 ∧
      (report [a, b]).status = .completed ∧ (report [b, a]).outputs = [b] ∧
      (report [a, b]).survivingIds = [1, 2, 3] ∧ (report [b, a]).survivingIds = [2, 1, 3] := by
  intro p made a b report
  have hbound : p.checkBindings [1, 2] = .ok () := by decide
  have hrun := (run_of_perm HostDevice.provider {} p (.swap b a []) made.2).2 hbound
  exact ⟨hrun.1, by decide, by decide, by decide, by decide, by decide⟩

end Program

end TensorMachine
