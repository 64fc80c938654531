import TensorMachine.Machine.Basic
import TensorMachine.Proofs.Basics
import TensorMachine.Proofs.PoolView

/-!
# What a step does

A plan that was found on a pool is legal there: what it introduces is new to the pool, and what it
reads is live in it. A legal action is carried out without another word of the pool, so that only
the device can still refuse it. In particular no handle is lost between the device and the pool.
-/

namespace TensorMachine

variable {σ η θ : Type}

lemma ExecutionError.pool_eq_ok_iff {α : Type} {answer : Except PoolError α} {a : α} :
    ExecutionError.pool answer = .ok a ↔ answer = .ok a := by
  cases answer <;> simp [ExecutionError.pool, Except.mapError]

lemma ExecutionError.kind_of_pool {α : Type} {answer : Except PoolError α} {e : ExecutionError}
    (h : ExecutionError.pool answer = .error e) : e.kind ≠ .device := by
  cases answer with
  | ok a => cases h
  | error cause =>
    cases h
    cases cause <;> exact nofun

lemma ExecutionError.pool_map {α β : Type} (g : α → β) (answer : Except PoolError α) :
    ExecutionError.pool (answer.map g) = (ExecutionError.pool answer).map g := by
  cases answer <;> rfl

namespace Pool

lemma ensureFresh_eq_ok_iff {p : Pool η} {id : TensorId} :
    p.ensureFresh id = .ok () ↔ p.isKnown id = false := by
  cases h : p.isKnown id <;> simp [ensureFresh, h]

lemma get_eq_ok_iff {p : Pool η} {id : TensorId} {e : Entry η} :
    p.get id = .ok e ↔ p.find? id = some e := by
  cases h : p.find? id <;> simp [get, h]

lemma checkTransition_eq_ok_iff {p : Pool η} {id : TensorId} {target : State} {e : Entry η} :
    p.checkTransition id target = .ok e ↔
      p.find? id = some e ∧ e.state.canBecome target = true := by
  unfold checkTransition
  cases hfind : p.find? id with
  | none =>
    simp only [reduceCtorEq, false_and, iff_false]
    cases p.missing id <;> simp
  | some entry =>
    by_cases hmove : entry.state.canBecome target = true
    · simp only [hmove, if_true, Except.ok.injEq, Option.some.injEq]
      constructor
      · rintro rfl
        exact ⟨rfl, hmove⟩
      · exact fun h => h.1
    · simp only [hmove, Bool.false_eq_true, if_false, reduceCtorEq, Option.some.injEq, false_iff]
      rintro ⟨rfl, h⟩
      exact hmove h

/-- Nothing keeps a tensor from changing sides. -/
lemma checkTransition_of_opposite {p : Pool η} {e : Entry η} {destination : Residence}
    (hfind : p.find? e.id = some e) (hside : e.residence = destination.opposite) :
    p.checkTransition e.id (.resident destination) = .ok e := by
  have hmove : e.state.canBecome (.resident destination) = true := by
    rw [Entry.state, hside]
    cases destination <;> rfl
  exact checkTransition_eq_ok_iff.mpr ⟨hfind, hmove⟩

/-- A new identifier is inserted without fail. -/
lemma insert_of_fresh {p : Pool η} {id : TensorId} (hfresh : p.isKnown id = false) (handle : η)
    (side : Residence) : p.insert id handle (.resident side) = .ok (p.introduce id handle side) := by
  rw [insert, ensureFresh_eq_ok_iff.mpr hfresh]
  rfl

lemma place_place (p : Pool η) (id : TensorId) (handle handle' : η) (side side' : Residence) :
    (p.place id handle side).place id handle' side' = p.place id handle' side' := by
  simp only [place, List.map_map, mk.injEq, and_true]
  apply List.map_congr_left
  intro e _
  by_cases h : e.id = id <;> simp [h]

lemma retire_place (p : Pool η) (id : TensorId) (handle : η) (side : Residence) (fate : Fate) :
    (p.place id handle side).retire id fate = p.retire id fate := by
  obtain ⟨live, retired⟩ := p
  simp only [place, retire, mk.injEq, and_true]
  induction live with
  | nil => rfl
  | cons e live ih => by_cases h : e.id = id <;> simp [h, ih]

lemma find?_placed {p : Pool η} {e : Entry η} (hfind : p.find? e.id = some e) (handle : η)
    (side : Residence) : (p.place e.id handle side).find? e.id = some ⟨e.id, handle, side⟩ := by
  rw [find?_place, if_pos rfl, hfind]
  rfl

/-- An identifier whose handle was replaced can still change sides. -/
lemma transition_placed {p : Pool η} {e : Entry η} {destination : Residence}
    (hfind : p.find? e.id = some e) (hside : e.residence = destination.opposite) (handle : η) :
    (p.place e.id handle e.residence).transition e.id (.resident destination) =
      .ok (.resident e.residence, p.place e.id handle destination) := by
  have hcheck := checkTransition_of_opposite (e := ⟨e.id, handle, e.residence⟩)
    (find?_placed hfind handle e.residence) hside
  simp only [transition, hcheck, bind, Except.bind, place_place, Entry.state]

/-- An identifier whose handle was replaced gives the new one to its successor. -/
lemma consume_placed {p : Pool η} {e : Entry η} (hfind : p.find? e.id = some e) (handle : η)
    (successor : TensorId) :
    (p.place e.id handle e.residence).consume e.id successor =
      .ok (handle, p.retire e.id (.consumed successor)) := by
  have hget := get_eq_ok_iff.mpr (find?_placed hfind handle e.residence)
  simp only [consume, hget, bind, Except.bind, retire_place]

lemma isKnown_retire_of_fresh {p : Pool η} {e : Entry η} {id : TensorId}
    (hfind : p.find? e.id = some e) (hfresh : p.isKnown id = false) (fate : Fate) :
    (p.retire e.id fate).isKnown id = false := by
  obtain ⟨hlive, hfate⟩ := (p.isKnown_eq_false_iff id).mp hfresh
  have hne : e.id ≠ id := by
    rintro rfl
    rw [hfind] at hlive
    cases hlive
  rw [isKnown_eq_false_iff, find?_retire, fate?_retire, if_neg hne, if_neg hne]
  exact ⟨hlive, hfate⟩

end Pool

/-!
### Plans
-/

/-- The action with other handles. -/
def Action.map (f : η → θ) : Action η → Action θ
  | allocate output type residence => allocate output type residence
  | transfer destination entry target => transfer destination (entry.map f) target
  | release entry force => release (entry.map f) force
  | compute kernel operands output => compute kernel (operands.map f) output

/-- What an action introduces is new to the pool, and what it reads is live there. -/
def Action.Legal (p : Pool η) : Action η → Prop
  | allocate output _ _ => p.isKnown output = false
  | transfer destination entry target =>
    p.find? entry.id = some entry ∧ entry.residence = destination.opposite ∧
      ∀ output ∈ target.ids, p.isKnown output = false
  | release entry _ => p.find? entry.id = some entry
  | compute _ operands output =>
    p.isKnown output = false ∧
      ∀ handle ∈ operands, ∃ e ∈ p.live, e.residence = .device ∧ e.handle = handle

namespace Instruction

lemma operand_eq_ok_iff {p : Pool η} {id : TensorId} {handle : η} :
    operand p id = .ok handle ↔
      ∃ e, p.find? id = some e ∧ e.residence = .device ∧ e.handle = handle := by
  rw [operand, Except.bind_eq_ok_iff]
  simp only [ExecutionError.pool_eq_ok_iff, Pool.get_eq_ok_iff]
  refine exists_congr fun e => and_congr_right fun _ => ?_
  by_cases h : e.residence = .device <;> simp [h]

/-- The operands that are found are the handles of entries on the device. -/
lemma exists_of_operands {p : Pool η} {ids : List TensorId} {handles : List η}
    (h : operands p ids = .ok handles) :
    ∃ entries : List (Entry η), ids = entries.map (·.id) ∧ handles = entries.map (·.handle) ∧
      ∀ e ∈ entries, p.find? e.id = some e ∧ e.residence = .device := by
  induction ids generalizing handles with
  | nil =>
    cases h
    exact ⟨[], rfl, rfl, by simp⟩
  | cons id ids ih =>
    obtain ⟨first, hfirst, hrest⟩ := Except.bind_eq_ok_iff.mp h
    obtain ⟨others, hothers, hall⟩ := Except.bind_eq_ok_iff.mp hrest
    cases hall
    obtain ⟨e, hfind, hside, rfl⟩ := operand_eq_ok_iff.mp hfirst
    obtain ⟨entries, rfl, rfl, hentries⟩ := ih hothers
    obtain rfl := Pool.find?_id hfind
    exact ⟨e :: entries, rfl, rfl, List.forall_mem_cons.mpr ⟨⟨hfind, hside⟩, hentries⟩⟩

lemma operands_of_live {p : Pool η} {entries : List (Entry η)}
    (hentries : ∀ e ∈ entries, p.find? e.id = some e ∧ e.residence = .device) :
    operands p (entries.map (·.id)) = .ok (entries.map (·.handle)) := by
  induction entries with
  | nil => rfl
  | cons e entries ih =>
    obtain ⟨⟨hfind, hside⟩, hrest⟩ := List.forall_mem_cons.mp hentries
    rw [List.map_cons, List.map_cons, operands, operand_eq_ok_iff.mpr ⟨e, hfind, hside, rfl⟩,
      ih hrest]
    rfl

lemma checkArity_eq_ok_iff {kernel : Kernel} {count : Nat} :
    checkArity kernel count = .ok () ↔ count = kernel.arity := by
  by_cases h : count = kernel.arity <;> simp [checkArity, h]

/-- The actions that are planned for an instruction, with all that a plan checks of the pool. -/
inductive Planned (p : Pool η) : Instruction → Action η → Prop
  | allocate {output : TensorId} {type : TensorType} {residence : Residence}
    (hfresh : p.isKnown output = false) :
    Planned p (.allocate output type residence) (.allocate output type residence)
  | transfer {destination : Residence} {entry : Entry η} {target : Target}
    (hfind : p.find? entry.id = some entry) (hside : entry.residence = destination.opposite)
    (hfresh : ∀ output ∈ target.ids, p.isKnown output = false) :
    Planned p (.transfer destination entry.id target) (.transfer destination entry target)
  | deallocate {entry : Entry η} {force : Bool} (hfind : p.find? entry.id = some entry) :
    Planned p (.deallocate entry.id force) (.release entry force)
  | compute {kernel : Kernel} {entries : List (Entry η)} {output : TensorId}
    (harity : entries.length = kernel.arity)
    (hentries : ∀ e ∈ entries, p.find? e.id = some e ∧ e.residence = .device)
    (hfresh : p.isKnown output = false) :
    Planned p (.compute kernel (entries.map (·.id)) output)
      (.compute kernel (entries.map (·.handle)) output)

lemma planned_of_plan {p : Pool η} {i : Instruction} {action : Action η}
    (hplan : i.plan p = .ok action) : Planned p i action := by
  cases i with
  | allocate output type residence =>
    obtain ⟨_, hfresh, hrest⟩ := Except.bind_eq_ok_iff.mp hplan
    cases hrest
    exact .allocate (Pool.ensureFresh_eq_ok_iff.mp (ExecutionError.pool_eq_ok_iff.mp hfresh))
  | transfer destination input target =>
    obtain ⟨e, hcheck, hrest⟩ := Except.bind_eq_ok_iff.mp hplan
    obtain ⟨hfind, hmove⟩ :=
      Pool.checkTransition_eq_ok_iff.mp (ExecutionError.pool_eq_ok_iff.mp hcheck)
    obtain rfl := Pool.find?_id hfind
    have hside : e.residence = destination.opposite := by
      revert hmove
      cases he : e.residence <;> cases destination <;>
        simp [Entry.state, State.canBecome, Residence.opposite, he]
    cases target with
    | inPlace =>
      cases hrest
      exact .transfer hfind hside (by simp [Target.ids])
    | renamed output =>
      obtain ⟨_, hfresh, hrest⟩ := Except.bind_eq_ok_iff.mp hrest
      cases hrest
      have hnew := Pool.ensureFresh_eq_ok_iff.mp (ExecutionError.pool_eq_ok_iff.mp hfresh)
      exact .transfer hfind hside (by simpa [Target.ids] using hnew)
  | deallocate input force =>
    obtain ⟨e, hcheck, hrest⟩ := Except.bind_eq_ok_iff.mp hplan
    obtain ⟨hfind, -⟩ :=
      Pool.checkTransition_eq_ok_iff.mp (ExecutionError.pool_eq_ok_iff.mp hcheck)
    obtain rfl := Pool.find?_id hfind
    cases hrest
    exact .deallocate hfind
  | compute kernel inputs output =>
    obtain ⟨_, harity, hrest⟩ := Except.bind_eq_ok_iff.mp hplan
    obtain ⟨handles, hoperands, hrest⟩ := Except.bind_eq_ok_iff.mp hrest
    obtain ⟨_, hfresh, hrest⟩ := Except.bind_eq_ok_iff.mp hrest
    cases hrest
    obtain ⟨entries, rfl, rfl, hentries⟩ := exists_of_operands hoperands
    rw [checkArity_eq_ok_iff, List.length_map] at harity
    exact .compute harity hentries
      (Pool.ensureFresh_eq_ok_iff.mp (ExecutionError.pool_eq_ok_iff.mp hfresh))

lemma legal_of_plan {p : Pool η} {i : Instruction} {action : Action η}
    (hplan : i.plan p = .ok action) : action.Legal p := by
  cases planned_of_plan hplan with
  | allocate hfresh => exact hfresh
  | transfer hfind hside hfresh => exact ⟨hfind, hside, hfresh⟩
  | deallocate hfind => exact hfind
  | compute _ hentries hfresh =>
    refine ⟨hfresh, fun handle hmem => ?_⟩
    obtain ⟨e, he, rfl⟩ := List.mem_map.mp hmem
    obtain ⟨hfind, hside⟩ := hentries e he
    exact ⟨e, Pool.mem_of_find? hfind, hside, rfl⟩

lemma kind_of_operands {p : Pool η} {ids : List TensorId} {e : ExecutionError}
    (h : operands p ids = .error e) : e.kind ≠ .device := by
  induction ids with
  | nil => cases h
  | cons id ids ih =>
    rcases Except.bind_eq_error_iff.mp h with hfirst | ⟨_, -, hrest⟩
    · rcases Except.bind_eq_error_iff.mp hfirst with hget | ⟨entry, -, hside⟩
      · exact ExecutionError.kind_of_pool hget
      · split at hside
        · cases hside
        · cases hside
          exact nofun
    · rcases Except.bind_eq_error_iff.mp hrest with hothers | ⟨_, -, hall⟩
      · exact ih hothers
      · cases hall

/-- An instruction without a plan is not refused by the device, which is not called. -/
lemma kind_of_plan {p : Pool η} {i : Instruction} {e : ExecutionError}
    (hplan : i.plan p = .error e) : e.kind ≠ .device := by
  cases i with
  | allocate output type residence =>
    rcases Except.bind_eq_error_iff.mp hplan with hfresh | ⟨_, -, hrest⟩
    · exact ExecutionError.kind_of_pool hfresh
    · cases hrest
  | transfer destination input target =>
    rcases Except.bind_eq_error_iff.mp hplan with hcheck | ⟨entry, -, hrest⟩
    · exact ExecutionError.kind_of_pool hcheck
    · cases target with
      | inPlace => cases hrest
      | renamed output =>
        rcases Except.bind_eq_error_iff.mp hrest with hfresh | ⟨_, -, hdone⟩
        · exact ExecutionError.kind_of_pool hfresh
        · cases hdone
  | deallocate input force =>
    rcases Except.bind_eq_error_iff.mp hplan with hcheck | ⟨_, -, hrest⟩
    · exact ExecutionError.kind_of_pool hcheck
    · cases hrest
  | compute kernel inputs output =>
    rcases Except.bind_eq_error_iff.mp hplan with harity | ⟨_, -, hrest⟩
    · unfold checkArity at harity
      split at harity
      · cases harity
      · cases harity
        exact nofun
    rcases Except.bind_eq_error_iff.mp hrest with hoperands | ⟨_, -, hrest⟩
    · exact kind_of_operands hoperands
    rcases Except.bind_eq_error_iff.mp hrest with hfresh | ⟨_, -, hdone⟩
    · exact ExecutionError.kind_of_pool hfresh
    · cases hdone

lemma operand_alike {f : η → θ} {p : Pool η} {q : Pool θ} (h : p.Alike f q) (id : TensorId) :
    operand q id = (operand p id).map f := by
  rw [operand, operand, h.get, ExecutionError.pool_map]
  cases ExecutionError.pool (p.get id) with
  | error e => rfl
  | ok e =>
    by_cases hside : e.residence = .device
    · simp [Except.map, bind, Except.bind, hside]
    · simp [Except.map, bind, Except.bind, hside]

lemma operands_alike {f : η → θ} {p : Pool η} {q : Pool θ} (h : p.Alike f q) (ids : List TensorId) :
    operands q ids = (operands p ids).map (List.map f) := by
  induction ids with
  | nil => rfl
  | cons id ids ih =>
    rw [operands, operands, operand_alike h, ih]
    cases operand p id with
    | error e => rfl
    | ok handle => cases operands p ids <;> rfl

/-- Pools that are alike give corresponding plans, and the same errors. -/
theorem plan_alike {f : η → θ} {p : Pool η} {q : Pool θ} (h : p.Alike f q) (i : Instruction) :
    i.plan q = (i.plan p).map (Action.map f) := by
  cases i with
  | allocate output type residence =>
    simp only [plan, h.ensureFresh]
    cases ExecutionError.pool (p.ensureFresh output) <;> rfl
  | transfer destination input target =>
    simp only [plan, h.checkTransition, ExecutionError.pool_map]
    cases ExecutionError.pool (p.checkTransition input (.resident destination)) with
    | error e => rfl
    | ok entry =>
      cases target with
      | inPlace => rfl
      | renamed output =>
        simp only [Except.map, bind, Except.bind, h.ensureFresh]
        cases ExecutionError.pool (p.ensureFresh output) <;> rfl
  | deallocate input force =>
    simp only [plan, h.checkTransition, ExecutionError.pool_map]
    cases ExecutionError.pool (p.checkTransition input .freed) <;> rfl
  | compute kernel inputs output =>
    simp only [plan, operands_alike h, h.ensureFresh]
    cases checkArity kernel inputs.length with
    | error e => rfl
    | ok _ =>
      cases operands p inputs with
      | error e => rfl
      | ok handles =>
        simp only [Except.map, bind, Except.bind]
        cases ExecutionError.pool (p.ensureFresh output) <;> rfl

end Instruction

/-!
### Actions
-/

namespace Action

/-- The pool after a transfer that the device has granted. -/
def move (p : Pool η) (destination : Residence) (id : TensorId) (handle : η) : Target → Pool η
  | .inPlace => p.place id handle destination
  | .renamed output => (p.retire id (.consumed output)).introduce output handle destination

/-- Calls the device and changes the pool as it answers, without asking the pool. -/
def carryOut (P : Provider σ η) (m : Machine σ η) : Action η →
    Except DeviceError Unit × Machine σ η
  | allocate output type residence =>
    match P.allocate type residence m.device with
    | (.ok handle, s) => (.ok (), ⟨m.pool.introduce output handle residence, s⟩)
    | (.error e, s) => (.error e, ⟨m.pool, s⟩)
  | transfer destination entry target =>
    match P.transfer destination entry.handle m.device with
    | (.ok (), handle, s) => (.ok (), ⟨move m.pool destination entry.id handle target, s⟩)
    | (.error e, handle, s) => (.error e, ⟨m.pool.place entry.id handle entry.residence, s⟩)
  | release entry force =>
    match P.release entry.handle force m.device with
    | (.ok (), s) => (.ok (), ⟨m.pool.retire entry.id .freed, s⟩)
    | (.error e, s) => (.error e, ⟨m.pool.retire entry.id .freed, s⟩)
  | compute kernel operands output =>
    match P.compute kernel operands m.device with
    | (.ok handle, s) => (.ok (), ⟨m.pool.introduce output handle .device, s⟩)
    | (.error e, s) => (.error e, ⟨m.pool, s⟩)

/-- What a legal action makes of a machine. -/
def outcome (P : Provider σ η) (operation : Opcode) (m : Machine σ η) (action : Action η) :
    Except ExecutionError Unit × Machine σ η :=
  ((action.carryOut P m).1.mapError (.device operation), (action.carryOut P m).2)

lemma settle_placed {p : Pool η} {destination : Residence} {entry : Entry η} {target : Target}
    (hfind : p.find? entry.id = some entry) (hside : entry.residence = destination.opposite)
    (hfresh : ∀ output ∈ target.ids, p.isKnown output = false) (handle : η) :
    settle (p.place entry.id handle entry.residence) destination entry.id target =
      (.ok (), move p destination entry.id handle target) := by
  cases target with
  | inPlace => rw [settle, Pool.transition_placed hfind hside handle, move]
  | renamed output =>
    have hnew := Pool.isKnown_retire_of_fresh hfind (hfresh output (by simp [Target.ids]))
      (.consumed output)
    simp only [settle, Pool.consume_placed hfind handle output, Pool.insert_of_fresh hnew, move]

/-- A legal action is refused by nothing but the device. -/
theorem perform_of_legal (P : Provider σ η) (operation : Opcode) (m : Machine σ η)
    {action : Action η} (hlegal : action.Legal m.pool) :
    action.perform P operation m = action.outcome P operation m := by
  unfold outcome
  cases action with
  | allocate output type residence =>
    simp only [perform, carryOut]
    rcases P.allocate type residence m.device with ⟨_ | handle, s⟩
    · rfl
    · simp only [deliver, Pool.insert_of_fresh hlegal]
      rfl
  | transfer destination entry target =>
    obtain ⟨hfind, hside, hfresh⟩ := hlegal
    simp only [perform, carryOut]
    rcases P.transfer destination entry.handle m.device with ⟨_ | _, handle, s⟩
    · rfl
    · simp only [settle_placed hfind hside hfresh]
      rfl
  | release entry force =>
    simp only [perform, carryOut]
    cases h : P.release entry.handle force m.device with
    | mk answer s => cases answer <;> simp [h]
  | compute kernel operands output =>
    simp only [perform, carryOut]
    rcases P.compute kernel operands m.device with ⟨_ | handle, s⟩
    · rfl
    · simp only [deliver, Pool.insert_of_fresh hlegal.1]
      rfl

lemma move_alike {f : η → θ} {p : Pool η} {q : Pool θ} (h : p.Alike f q)
    (destination : Residence) (id : TensorId) (handle : η) (target : Target) :
    (move p destination id handle target).Alike f (move q destination id (f handle) target) := by
  cases target with
  | inPlace => exact h.place id handle destination
  | renamed output => exact (h.retire id (.consumed output)).introduce output handle destination

lemma mem_live_move (p : Pool η) (destination : Residence) (id : TensorId) (handle : η)
    (target : Target) :
    ∃ x, ∀ e ∈ (move p destination id handle target).live,
      e = ⟨x, handle, destination⟩ ∨ e ∈ p.live ∧ e.id ≠ id := by
  cases target with
  | inPlace => exact ⟨id, fun e he => Pool.mem_live_place he⟩
  | renamed output =>
    refine ⟨output, fun e he => ?_⟩
    rcases Pool.mem_live_introduce.mp he with he | rfl
    · exact .inr (Pool.mem_live_retire.mp he)
    · exact .inl rfl

end Action

namespace Machine

lemma step_of_plan_error (P : Provider σ η) {i : Instruction} {m : Machine σ η} {e : ExecutionError}
    (hplan : i.plan m.pool = .error e) : m.step P i = (.error e, m) := by
  simp only [step, hplan]

/-- A step whose plan was found stops for no other reason than the refusal of the device. -/
theorem step_of_plan_ok (P : Provider σ η) {i : Instruction} {m : Machine σ η} {action : Action η}
    (hplan : i.plan m.pool = .ok action) : m.step P i = action.outcome P i.opcode m := by
  simp only [step, hplan]
  exact Action.perform_of_legal P i.opcode m (Instruction.legal_of_plan hplan)

end Machine

end TensorMachine
