import TensorMachine.Proofs.CallOrder
import TensorMachine.Proofs.Lifecycle

/-!
# All or nothing

An instruction that is forbidden calls no device and changes nothing. One that the device refuses
makes this one call and keeps the pool as it was, but that a release frees its identifier. One that
goes through introduces its outputs and touches no identifier that it does not name.
-/

namespace TensorMachine

variable {σ η : Type}

/-!
### What an instruction does not name
-/

namespace Pool

/-- The pools agree on all identifiers but some: on the live tensors with their handles and order,
and on the fates of those that left. -/
structure SameBut (own : List TensorId) (p q : Pool η) : Prop where
  live : q.live.filter (·.id ∉ own) = p.live.filter (·.id ∉ own)
  retired : q.retired.filter (·.1 ∉ own) = p.retired.filter (·.1 ∉ own)

namespace SameBut

variable {own : List TensorId} {p q : Pool η} {id : TensorId}

lemma refl (own : List TensorId) (p : Pool η) : SameBut own p p := ⟨rfl, rfl⟩

lemma introduce (h : SameBut own p q) (hown : id ∈ own) (handle : η) (side : Residence) :
    SameBut own p (q.introduce id handle side) where
  live := by
    rw [Pool.introduce, List.filter_append, h.live]
    simp [hown]
  retired := h.retired

lemma place (h : SameBut own p q) (hown : id ∈ own) (handle : η) (side : Residence) :
    SameBut own p (q.place id handle side) where
  live := by
    have hplaced : (q.place id handle side).live.filter (·.id ∉ own) =
        q.live.filter (·.id ∉ own) := by
      simp only [Pool.place]
      induction q.live with
      | nil => rfl
      | cons e live ih =>
        by_cases he : e.id = id
        · have heown : e.id ∈ own := he ▸ hown
          rw [List.map_cons, if_pos he, List.filter_cons_of_neg (by simpa using hown), ih,
            List.filter_cons_of_neg (by simpa using heown)]
        · rw [List.map_cons, if_neg he, List.filter_cons, List.filter_cons, ih]
    exact hplaced.trans h.live
  retired := h.retired

lemma retire (h : SameBut own p q) (hown : id ∈ own) (fate : Fate) :
    SameBut own p (q.retire id fate) where
  live := by
    rw [← h.live, Pool.retire, List.filter_filter]
    apply List.filter_congr
    intro e _
    by_cases he : e.id = id
    · simp [he, hown]
    · simp [he]
  retired := by
    rw [← h.retired, Pool.retire, List.filter_cons_of_neg (by simpa using hown)]

end SameBut

lemma isKnown_introduce_iff (p : Pool η) (id x : TensorId) (handle : η) (side : Residence) :
    (p.introduce id handle side).isKnown x = true ↔ p.isKnown x = true ∨ x = id := by
  rw [isKnown_introduce, Bool.or_eq_true, beq_iff_eq]
  exact or_congr_right eq_comm

lemma isKnown_place (p : Pool η) (id x : TensorId) (handle : η) (side : Residence) :
    (p.place id handle side).isKnown x = p.isKnown x := by
  rw [isKnown, isKnown, contains, contains, find?_place, fate?_place]
  by_cases hx : id = x
  · rw [if_pos hx, Option.isSome_map]
  · rw [if_neg hx]

/-- What a retirement takes out of the live tensors is still known. -/
lemma isKnown_retire {p : Pool η} {id : TensorId} (hknown : p.isKnown id = true) (x : TensorId)
    (fate : Fate) : (p.retire id fate).isKnown x = p.isKnown x := by
  rw [isKnown, contains, find?_retire, fate?_retire]
  by_cases hx : id = x
  · subst hx
    simp [hknown]
  · rw [if_neg hx, if_neg hx]
    rfl

lemma isKnown_of_find? {p : Pool η} {id : TensorId} {e : Entry η} (h : p.find? id = some e) :
    p.isKnown id = true := by
  rw [isKnown, contains, h]
  rfl

lemma contains_introduce (p : Pool η) (id : TensorId) (handle : η) (side : Residence) :
    (p.introduce id handle side).contains id = true := by
  rw [contains, find?_introduce]
  simp

end Pool

/-!
### Steps
-/

namespace Machine

variable {P : Provider σ η} {m m' : Machine σ η} {i : Instruction}

lemma Passes.sameBut (h : m.Passes P i m') :
    m.pool.SameBut (i.inputs ++ i.outputs) m'.pool := by
  have hrefl := Pool.SameBut.refl (i.inputs ++ i.outputs) m.pool
  cases h with
  | allocate => exact hrefl.introduce (by simp [Instruction.outputs]) _ _
  | @transfer destination entry target =>
    cases target with
    | inPlace => exact hrefl.place (by simp [Instruction.inputs]) _ _
    | renamed output =>
      exact (hrefl.retire (by simp [Instruction.inputs]) _).introduce
        (by simp [Instruction.outputs, Target.ids]) _ _
  | deallocate => exact hrefl.retire (by simp [Instruction.inputs]) _
  | compute => exact hrefl.introduce (by simp [Instruction.outputs]) _ _

lemma Passes.isKnown_iff (h : m.Passes P i m') (id : TensorId) :
    m'.pool.isKnown id = true ↔ m.pool.isKnown id = true ∨ id ∈ i.outputs := by
  cases h with
  | allocate => simp [Pool.isKnown_introduce_iff, Instruction.outputs]
  | @transfer destination entry target _ _ hfind =>
    have hinput := Pool.isKnown_of_find? hfind
    cases target with
    | inPlace => simp [Action.move, Pool.isKnown_place, Instruction.outputs, Target.ids]
    | renamed output =>
      simp [Action.move, Pool.isKnown_introduce_iff, Pool.isKnown_retire hinput,
        Instruction.outputs, Target.ids]
  | deallocate hfind =>
    simp [Pool.isKnown_retire (Pool.isKnown_of_find? hfind), Instruction.outputs]
  | compute => simp [Pool.isKnown_introduce_iff, Instruction.outputs]

/-- The outputs of an instruction are new to the pool, and live behind it. -/
lemma Passes.introduced (h : m.Passes P i m') :
    ∀ id ∈ i.outputs, m.pool.isKnown id = false ∧ m'.pool.contains id = true := by
  cases h with
  | allocate hfresh =>
    simpa [Instruction.outputs] using ⟨hfresh, Pool.contains_introduce _ _ _ _⟩
  | @transfer destination entry target _ _ _ _ hfresh =>
    cases target with
    | inPlace => simp [Instruction.outputs, Target.ids]
    | renamed output =>
      have hnew := hfresh output (by simp [Target.ids])
      simpa [Instruction.outputs, Target.ids] using ⟨hnew, Pool.contains_introduce _ _ _ _⟩
  | deallocate => simp [Instruction.outputs]
  | compute _ _ hfresh =>
    simpa [Instruction.outputs] using ⟨hfresh, Pool.contains_introduce _ _ _ _⟩

lemma Stops.retired {e : ExecutionError} (h : m.Stops P i e m') :
    m'.pool.retired =
      ((i.forfeited? e).map fun id => (id, Fate.freed)).toList ++ m.pool.retired := by
  cases h with
  | plan hplan => rw [Instruction.forfeited?_of_kind (Instruction.kind_of_plan hplan)]; rfl
  | allocate | transfer | deallocate | compute => rfl

/-- The calls that a step makes. -/
def stepCalls (P : Provider σ η) (i : Instruction) (m : Machine σ η) : List (Exchange η) :=
  (step P.recorded i ⟨m.pool, m.device, []⟩).2.device.2

end Machine

/-- An instruction behind any history is carried out in full or not at all. If it is forbidden,
nothing is called and nothing changes. If the device refuses it, this was the one call, and the pool
keeps its identifiers, states and fates, but that a refused release has freed its identifier. If it
goes through, this was the one call too, what it does not name is as it was, and what it introduces
are its outputs. -/
theorem Pool.Traced.step_atomic {standing : TensorId → Standing} {p : Pool η}
    (h : Traced standing p) (P : Provider σ η) (s : σ) (i : Instruction) :
    let m : Machine σ η := ⟨p, s⟩
    let q := (m.step P i).2.pool
    (∀ e, (m.step P i).1 = .error e → e.kind ≠ .device →
      m.stepCalls P i = [] ∧ (m.step P i).2 = m) ∧
    (∀ e, (m.step P i).1 = .error e → e.kind = .device →
      ∃ call cause, m.stepCalls P i = [call] ∧ e = .device i.opcode cause ∧
        i.CallRefused p.holdings call cause q.holdings ∧
        q.snapshot = p.snapshot.filter (fun t => i.forfeited? e ≠ some t.1) ∧
        q.retired = ((i.forfeited? e).map fun id => (id, Fate.freed)).toList ++ p.retired) ∧
    ((m.step P i).1 = .ok () →
      ∃ call, m.stepCalls P i = [call] ∧ i.CallGranted p.holdings call q.holdings ∧
        p.SameBut (i.inputs ++ i.outputs) q ∧
        (∀ id, q.isKnown id = true ↔ p.isKnown id = true ∨ id ∈ i.outputs) ∧
        ∀ id ∈ i.outputs, p.isKnown id = false ∧ q.contains id = true) := by
  intro m q
  have hplain : m.step P i = ((Machine.step P.recorded i ⟨p, s, []⟩).1,
      (Machine.step P.recorded i ⟨p, s, []⟩).2.plain) := Machine.step_recorded P i ⟨p, s, []⟩
  have hcalls : m.stepCalls P i = (Machine.step P.recorded i ⟨p, s, []⟩).2.device.2 := rfl
  have hq : q = (Machine.step P.recorded i ⟨p, s, []⟩).2.pool :=
    congrArg (fun answer => answer.2.pool) hplain
  rcases Machine.step_cases P.recorded i ⟨p, s, []⟩ with
    ⟨m', hstep, hpasses⟩ | ⟨e, m', hstep, hstops⟩
  · rw [hstep] at hplain hcalls hq
    obtain ⟨call, hcall, hgranted⟩ := hpasses.call
    rw [hplain, hcalls, hq]
    refine ⟨?_, ?_, fun _ => ?_⟩
    · rintro e ⟨⟩
    · rintro e ⟨⟩
    · exact ⟨call, hcall, hgranted, hpasses.sameBut, hpasses.isKnown_iff, hpasses.introduced⟩
  · rw [hstep] at hplain hcalls hq
    rw [hplain, hcalls, hq]
    refine ⟨?_, ?_, by rintro ⟨⟩⟩
    · rintro e' ⟨⟩ hkind
      rcases hstops.call with ⟨-, rfl⟩ | ⟨call, cause, rfl, -⟩
      · exact ⟨rfl, rfl⟩
      · exact absurd rfl hkind
    · rintro e' ⟨⟩ hkind
      rcases hstops.call with ⟨hother, -⟩ | ⟨call, cause, hcause, hcall, hrefused⟩
      · exact absurd hkind hother
      · exact ⟨call, cause, hcall, hcause, hrefused, hstops.snapshot h.nodup_ids, hstops.retired⟩

/-- The device refuses to give up a pinned tensor. That is the one call, and the tensor beside it
keeps its place in the pool. -/
theorem Pool.Traced.step_atomic_pinned :
    let d := (((HostDevice.new 64 64).hostTensor ⟨.u8, [1]⟩ [7]).2.hostTensor ⟨.u8, [1]⟩ [9]).2.pin 1
    let t : HostTensor := ⟨⟨1, ⟨.u8, [1]⟩, .host⟩, [7]⟩
    let x : HostTensor := ⟨⟨2, ⟨.u8, [1]⟩, .host⟩, [9]⟩
    let p : Pool HostTensor := (Pool.empty.introduce 5 t .host).introduce 6 x .host
    let standing := Function.update (Function.update (fun _ => Standing.unused) 5 (.live .host)) 6
      (.live .host)
    let m : Machine HostDevice HostTensor := ⟨p, d⟩
    let answer := m.step HostDevice.provider (.deallocate 5 false)
    Traced standing p ∧ answer.1 = .error (.device .deallocate (.pendingReferences 1)) ∧
      (∃ call, m.stepCalls HostDevice.provider (.deallocate 5 false) = [call]) ∧
      answer.2.pool.snapshot = [(6, .resident .host)] ∧ answer.2.pool.retired = [(5, .freed)] := by
  intro d t x p standing m answer
  have hfirst : Traced _ (Pool.empty.introduce 5 t .host) :=
    Traced.new.input (insert_of_fresh rfl t .host)
  have htraced : Traced standing p := hfirst.input (insert_of_fresh rfl x .host)
  have hanswer : answer.1 = .error (.device .deallocate (.pendingReferences 1)) := by decide
  obtain ⟨call, cause, hcall, -, -, hsnapshot, hretired⟩ :=
    (htraced.step_atomic HostDevice.provider d (.deallocate 5 false)).2.1 _ hanswer rfl
  exact ⟨htraced, hanswer, ⟨call, hcall⟩, hsnapshot, hretired⟩

end TensorMachine
