import TensorMachine.Device.Host
import TensorMachine.Proofs.Survivors
import Mathlib.Logic.Function.Basic

/-!
# The lifecycle of identifiers

An identifier is unused at first. Then it is live on a side, and at last it is freed, or consumed
by a transfer under another identifier. What an instruction may do with it, and with which error it
is refused otherwise, is read off this standing alone. The pool keeps no standings, but it gives the
answers that they demand after every history.
-/

namespace TensorMachine

variable {η : Type}

/-- What has become of an identifier. -/
inductive Standing where
  | unused
  | live (side : Residence)
  | freed
  | consumed (successor : TensorId)
  deriving DecidableEq

namespace Standing

/-- What forbids to introduce an identifier. -/
def introduceBreach? (id : TensorId) : Standing → Option ExecutionError
  | unused => none
  | live _ | freed | consumed _ => some (.protocol (.duplicateIdentifier id))

/-- What forbids to move an identifier to a state. -/
def moveBreach? (id : TensorId) (target : State) : Standing → Option ExecutionError
  | unused => some (.protocol (.unknownIdentifier id))
  | live side =>
    if .resident side = target then some (.illegalTransition id target target) else none
  | freed => some (.illegalTransition id .freed target)
  | consumed successor => some (.protocol (.consumedIdentifier id successor))

/-- What forbids a kernel to read an identifier. -/
def readBreach? (id : TensorId) : Standing → Option ExecutionError
  | unused => some (.protocol (.unknownIdentifier id))
  | live .device => none
  | live .host => some (.residencyMismatch id (.resident .device) (.resident .host))
  | freed => some (.useAfterFree id)
  | consumed successor => some (.protocol (.consumedIdentifier id successor))

end Standing

namespace Instruction

/-- What forbids an instruction. It is the first fault among those of the number of operands, of the
identifiers that the instruction reads, in order, and of the one that it introduces. -/
def breach? (standing : TensorId → Standing) : Instruction → Option ExecutionError
  | allocate output _ _ => (standing output).introduceBreach? output
  | transfer destination input target =>
    ((standing input).moveBreach? input (.resident destination)).or
      (target.ids.findSome? fun output => (standing output).introduceBreach? output)
  | deallocate input _ => (standing input).moveBreach? input .freed
  | compute kernel inputs output =>
    if inputs.length = kernel.arity then
      (inputs.findSome? fun input => (standing input).readBreach? input).or
        ((standing output).introduceBreach? output)
    else some (.protocol (.arityMismatch kernel inputs.length))

/-- The standings behind an instruction that was executed. -/
def advanceStanding (standing : TensorId → Standing) : Instruction → TensorId → Standing
  | allocate output _ residence => Function.update standing output (.live residence)
  | transfer destination input .inPlace => Function.update standing input (.live destination)
  | transfer destination input (.renamed output) =>
    Function.update (Function.update standing input (.consumed output)) output (.live destination)
  | deallocate input _ => Function.update standing input .freed
  | compute _ _ output => Function.update standing output (.live .device)

/-- The standings behind an instruction with its answer. One that failed has changed none, but that
a refused release frees its identifier all the same. -/
def standingAfter (standing : TensorId → Standing) (i : Instruction) :
    Except ExecutionError Unit → TensorId → Standing
  | .ok () => i.advanceStanding standing
  | .error e =>
    match i.forfeited? e with
    | some id => Function.update standing id .freed
    | none => standing

end Instruction

namespace Pool

/-- The pools that inputs on the host side and then instructions lead to, with the standings that
this history gives to the identifiers. Every instruction may meet another device, and it may fail. -/
inductive Traced : (TensorId → Standing) → Pool η → Prop
  | new : Traced (fun _ => .unused) .empty
  | input {standing : TensorId → Standing} {p q : Pool η} (h : Traced standing p) {id : TensorId}
    {handle : η} (hinsert : p.insert id handle (.resident .host) = .ok q) :
    Traced (Function.update standing id (.live .host)) q
  | step {standing : TensorId → Standing} {p : Pool η} {σ : Type} (h : Traced standing p)
    (P : Provider σ η) (s : σ) (i : Instruction) :
    Traced (i.standingAfter standing (Machine.step P i ⟨p, s⟩).1) (Machine.step P i ⟨p, s⟩).2.pool

end Pool

/-!
### Standings in a pool
-/

def Fate.standing : Fate → Standing
  | freed => .freed
  | consumed successor => .consumed successor

namespace Pool

/-- The standing of an identifier as a pool tells it. -/
def standing (p : Pool η) (id : TensorId) : Standing :=
  match p.find? id, p.fate? id with
  | some e, _ => .live e.residence
  | none, some fate => fate.standing
  | none, none => .unused

variable {p : Pool η} {id : TensorId}

lemma standing_of_find? {e : Entry η} (h : p.find? id = some e) :
    p.standing id = .live e.residence := by
  simp only [standing, h]

lemma standing_of_fate? {fate : Fate} (h : p.find? id = none) (hfate : p.fate? id = some fate) :
    p.standing id = fate.standing := by
  simp only [standing, h, hfate]

lemma standing_eq_unused_iff : p.standing id = .unused ↔ p.isKnown id = false := by
  rw [isKnown_eq_false_iff, standing]
  cases p.find? id with
  | some e => simp
  | none =>
    cases p.fate? id with
    | some fate => cases fate <;> simp [Fate.standing]
    | none => simp

lemma standing_introduce (hfresh : p.find? id = none) (handle : η) (side : Residence) :
    (p.introduce id handle side).standing = Function.update p.standing id (.live side) := by
  funext x
  by_cases hx : x = id
  · subst hx
    rw [Function.update_self, standing, find?_introduce, hfresh]
    simp
  · rw [Function.update_of_ne hx, standing, find?_introduce, fate?_introduce, if_neg (Ne.symm hx),
      Option.or_none]
    rfl

lemma standing_place {e : Entry η} (hfind : p.find? id = some e) (handle : η) (side : Residence) :
    (p.place id handle side).standing = Function.update p.standing id (.live side) := by
  funext x
  by_cases hx : x = id
  · subst hx
    rw [Function.update_self, standing, find?_place, hfind]
    simp
  · rw [Function.update_of_ne hx, standing, find?_place, fate?_place, if_neg (Ne.symm hx)]
    rfl

lemma standing_place_self {e : Entry η} (hfind : p.find? id = some e) (handle : η) :
    (p.place id handle e.residence).standing = p.standing := by
  rw [standing_place hfind, ← standing_of_find? hfind, Function.update_eq_self]

lemma standing_retire (p : Pool η) (id : TensorId) (fate : Fate) :
    (p.retire id fate).standing = Function.update p.standing id fate.standing := by
  funext x
  by_cases hx : x = id
  · subst hx
    rw [Function.update_self, standing, find?_retire, fate?_retire, if_pos rfl, if_pos rfl]
  · rw [Function.update_of_ne hx, standing, find?_retire, fate?_retire, if_neg (Ne.symm hx),
      if_neg (Ne.symm hx)]
    rfl

end Pool

/-!
### Refusals
-/

/-- Of two checks in a row the first breach counts. -/
lemma Except.bind_eq_error_iff_or {α β ε : Type} {x : Except ε α} {g : α → Except ε β}
    {b c : Option ε} (hx : ∀ e, x = .error e ↔ b = some e)
    (hg : ∀ a, x = .ok a → ∀ e, g a = .error e ↔ c = some e) (e : ε) :
    (x >>= g) = .error e ↔ b.or c = some e := by
  cases x with
  | error cause =>
    rw [(hx cause).mp rfl]
    simp [bind, Except.bind]
  | ok a =>
    have hb : b = none := by
      cases b with
      | none => rfl
      | some cause => cases (hx cause).mpr rfl
    rw [hb, Option.none_or]
    exact hg a rfl e

lemma Except.bind_ok_eq_error_iff {α β ε : Type} {x : Except ε α} {f : α → β} {e : ε} :
    (x >>= fun a => .ok (f a)) = .error e ↔ x = .error e := by
  cases x <;> simp [bind, Except.bind]

lemma ExecutionError.pool_error {α : Type} {cause : PoolError} :
    ExecutionError.pool (.error cause : Except PoolError α) = .error (.ofPool cause) := rfl

lemma ExecutionError.pool_ok {α : Type} {a : α} :
    ExecutionError.pool (.ok a : Except PoolError α) = .ok a := rfl

namespace Pool

variable {p : Pool η} {id : TensorId} {e : ExecutionError}

lemma ensureFresh_eq_error_iff :
    ExecutionError.pool (p.ensureFresh id) = .error e ↔
      (p.standing id).introduceBreach? id = some e := by
  cases hknown : p.isKnown id with
  | false =>
    rw [ensureFresh_eq_ok_iff.mpr hknown, standing_eq_unused_iff.mpr hknown]
    simp [ExecutionError.pool_ok, Standing.introduceBreach?]
  | true =>
    have hstanding : p.standing id ≠ .unused := by
      rw [Ne, standing_eq_unused_iff, hknown]
      exact nofun
    have hbreach : (p.standing id).introduceBreach? id =
        some (.protocol (.duplicateIdentifier id)) := by
      cases hcase : p.standing id with
      | unused => exact absurd hcase hstanding
      | live _ | freed | consumed _ => rfl
    rw [hbreach]
    simp [ensureFresh, hknown, ExecutionError.pool_error, ExecutionError.ofPool]

lemma checkTransition_eq_error_iff {target : State} :
    ExecutionError.pool (p.checkTransition id target) = .error e ↔
      (p.standing id).moveBreach? id target = some e := by
  cases hfind : p.find? id with
  | some entry =>
    rw [standing_of_find? hfind, checkTransition, hfind]
    cases target with
    | freed =>
      simp [Entry.state, State.canBecome, ExecutionError.pool_ok, Standing.moveBreach?]
    | resident side =>
      by_cases hside : entry.residence = side
      · simp [Entry.state, hside, ExecutionError.pool_error, ExecutionError.ofPool,
          Standing.moveBreach?]
      · simp [Entry.state, State.canBecome, hside, ExecutionError.pool_ok, Standing.moveBreach?]
  | none =>
    rw [checkTransition, hfind]
    cases hfate : p.fate? id with
    | none =>
      rw [standing_eq_unused_iff.mpr ((p.isKnown_eq_false_iff id).mpr ⟨hfind, hfate⟩)]
      simp [missing, hfate, ExecutionError.pool_error, ExecutionError.ofPool,
        Standing.moveBreach?]
    | some fate =>
      rw [standing_of_fate? hfind hfate]
      cases fate <;>
        simp [missing, hfate, ExecutionError.pool_error, ExecutionError.ofPool, Fate.standing,
          Standing.moveBreach?]

end Pool

namespace Instruction

variable {p : Pool η} {e : ExecutionError}

lemma operand_eq_error_iff {id : TensorId} :
    operand p id = .error e ↔ (p.standing id).readBreach? id = some e := by
  cases hfind : p.find? id with
  | some entry =>
    rw [operand, Pool.get_eq_ok_iff.mpr hfind, Pool.standing_of_find? hfind]
    cases hside : entry.residence <;>
      simp [ExecutionError.pool_ok, bind, Except.bind, Entry.state, hside, Standing.readBreach?]
  | none =>
    rw [operand, Pool.get, hfind]
    cases hfate : p.fate? id with
    | none =>
      rw [Pool.standing_eq_unused_iff.mpr ((p.isKnown_eq_false_iff id).mpr ⟨hfind, hfate⟩)]
      simp [Pool.missing, hfate, ExecutionError.pool_error, ExecutionError.ofPool, bind,
        Except.bind, Standing.readBreach?]
    | some fate =>
      rw [Pool.standing_of_fate? hfind hfate]
      cases fate <;>
        simp [Pool.missing, hfate, ExecutionError.pool_error, ExecutionError.ofPool, bind,
          Except.bind, Fate.standing, Standing.readBreach?]

/-- Operands are refused for the first that cannot be read. -/
lemma operands_eq_error_iff {ids : List TensorId} :
    operands p ids = .error e ↔
      (ids.findSome? fun id => (p.standing id).readBreach? id) = some e := by
  induction ids generalizing e with
  | nil => simp [operands]
  | cons id ids ih =>
    have hfirst : ((id :: ids).findSome? fun id => (p.standing id).readBreach? id) =
        ((p.standing id).readBreach? id).or
          (ids.findSome? fun id => (p.standing id).readBreach? id) := by
      rw [List.findSome?_cons]
      cases (p.standing id).readBreach? id <;> rfl
    rw [operands, hfirst]
    refine Except.bind_eq_error_iff_or (fun e => operand_eq_error_iff) (fun handle _ e => ?_) e
    rw [Except.bind_ok_eq_error_iff]
    exact ih

/-- A pool has no plan for exactly the instructions that the standings forbid. -/
theorem plan_eq_error_iff {i : Instruction} :
    i.plan p = .error e ↔ i.breach? p.standing = some e := by
  cases i with
  | allocate output type residence =>
    rw [plan, Except.bind_ok_eq_error_iff]
    exact Pool.ensureFresh_eq_error_iff
  | transfer destination input target =>
    refine Except.bind_eq_error_iff_or (fun e => Pool.checkTransition_eq_error_iff)
      (fun entry _ e => ?_) e
    cases target with
    | inPlace => simp [Target.ids]
    | renamed output =>
      rw [Except.bind_ok_eq_error_iff, Pool.ensureFresh_eq_error_iff]
      simp [Target.ids]
  | deallocate input force =>
    rw [plan, Except.bind_ok_eq_error_iff]
    exact Pool.checkTransition_eq_error_iff
  | compute kernel inputs output =>
    rw [plan, breach?]
    by_cases harity : inputs.length = kernel.arity
    · rw [checkArity_eq_ok_iff.mpr harity, if_pos harity]
      refine Except.bind_eq_error_iff_or (fun e => operands_eq_error_iff) (fun handles _ e => ?_) e
      rw [Except.bind_ok_eq_error_iff]
      exact Pool.ensureFresh_eq_error_iff
    · rw [checkArity, if_neg harity, if_neg harity]
      simp [bind, Except.bind]

end Instruction

/-!
### Histories
-/

namespace Machine

variable {σ : Type} {P : Provider σ η} {m m' : Machine σ η} {i : Instruction}

lemma Passes.standing (h : m.Passes P i m') :
    m'.pool.standing = i.advanceStanding m.pool.standing := by
  cases h with
  | allocate hfresh => exact Pool.standing_introduce (Pool.find?_of_fresh hfresh) _ _
  | @transfer destination entry target handle s hfind _ hfresh =>
    cases target with
    | inPlace => exact Pool.standing_place hfind handle destination
    | renamed output =>
      have hnew := Pool.find?_of_fresh (hfresh output (by simp [Target.ids]))
      have hgone : (m.pool.retire entry.id (.consumed output)).find? output = none := by
        rw [Pool.find?_retire, hnew, ite_self]
      rw [Action.move, Pool.standing_introduce hgone, Pool.standing_retire]
      rfl
  | deallocate => exact Pool.standing_retire _ _ _
  | compute _ _ hfresh => exact Pool.standing_introduce (Pool.find?_of_fresh hfresh) _ _

lemma Stops.standing {e : ExecutionError} (h : m.Stops P i e m') :
    m'.pool.standing = i.standingAfter m.pool.standing (.error e) := by
  cases h with
  | plan hplan =>
    rw [Instruction.standingAfter, Instruction.forfeited?_of_kind (Instruction.kind_of_plan hplan)]
  | allocate | compute => rfl
  | transfer hfind => exact Pool.standing_place_self hfind _
  | deallocate => exact Pool.standing_retire _ _ _

lemma answer_of_plan_ok (P : Provider σ η) {p : Pool η} (s : σ) {action : Action η}
    (hplan : i.plan p = .ok action) :
    (step P i ⟨p, s⟩).1 = .ok () ∨
      ∃ cause, (step P i ⟨p, s⟩).1 = .error (.device i.opcode cause) := by
  rw [step_of_plan_ok P (m := ⟨p, s⟩) hplan, Action.outcome]
  cases (action.carryOut P ⟨p, s⟩).1 with
  | ok _ => exact .inl rfl
  | error cause => exact .inr ⟨cause, rfl⟩

lemma standing_step (P : Provider σ η) (i : Instruction) (m : Machine σ η) :
    (m.step P i).2.pool.standing = i.standingAfter m.pool.standing (m.step P i).1 := by
  rcases step_cases P i m with ⟨m', hstep, hpasses⟩ | ⟨e, m', hstep, hstops⟩
  · rw [hstep]
    exact hpasses.standing
  · rw [hstep]
    exact hstops.standing

end Machine

namespace Pool.Traced

variable {standing : TensorId → Standing} {p : Pool η}

/-- A pool tells the standings that its history gives. -/
lemma standing_eq (h : Traced standing p) : standing = p.standing := by
  induction h with
  | new => rfl
  | @input standing p q _ id handle hinsert ih =>
    obtain ⟨_, hfresh, hrest⟩ := Except.bind_eq_ok_iff.mp hinsert
    cases hrest
    have hnew := find?_of_fresh (ensureFresh_eq_ok_iff.mp hfresh)
    rw [ih, standing_introduce hnew]
  | step _ P s i ih => rw [ih, Machine.standing_step P i]

lemma nodup_ids (h : Traced standing p) : p.ids.Nodup := by
  induction h with
  | new => exact List.nodup_nil
  | input _ hinsert ih =>
    obtain ⟨_, hfresh, hrest⟩ := Except.bind_eq_ok_iff.mp hinsert
    cases hrest
    exact nodup_ids_introduce ih (find?_of_fresh (ensureFresh_eq_ok_iff.mp hfresh)) _ _
  | step _ P s i ih => exact Machine.nodup_ids_step P i ih

/-- What an instruction may do behind any history is read off the standings that the history gives
to the identifiers. It fails with an error of protocol or lifecycle exactly if these forbid it, for
the first of the breaches, and otherwise it succeeds or is refused by the device. -/
theorem step_eq_error_iff {σ : Type} (h : Traced standing p) (P : Provider σ η) (s : σ)
    (i : Instruction) :
    (∀ e, e.kind ≠ .device →
      ((Machine.step P i ⟨p, s⟩).1 = .error e ↔ i.breach? standing = some e)) ∧
    (i.breach? standing = none →
      (Machine.step P i ⟨p, s⟩).1 = .ok () ∨
        ∃ cause, (Machine.step P i ⟨p, s⟩).1 = .error (.device i.opcode cause)) := by
  have hplan : ∀ e, i.plan p = .error e ↔ i.breach? standing = some e := fun e => by
    rw [h.standing_eq]
    exact Instruction.plan_eq_error_iff
  cases hcase : i.plan p with
  | error cause =>
    have hbreach := (hplan cause).mp hcase
    rw [Machine.step_of_plan_error P hcase, hbreach]
    refine ⟨fun e _ => ?_, nofun⟩
    rw [Except.error.injEq, Option.some.injEq]
  | ok action =>
    have hnone : i.breach? standing = none := by
      cases hbreach : i.breach? standing with
      | none => rfl
      | some e => cases hcase.symm.trans ((hplan e).mpr hbreach)
    have hanswer := Machine.answer_of_plan_ok P s hcase
    refine ⟨fun e hkind => ?_, fun _ => hanswer⟩
    rw [hnone]
    refine ⟨fun hstep => ?_, nofun⟩
    rcases hanswer with hok | ⟨cause, hrefused⟩
    · cases hok.symm.trans hstep
    · cases hrefused.symm.trans hstep
      exact absurd rfl hkind

/-- Behind a transfer of 1 under 3, a sum of 1 and 2 fails for the consumed identifier and not for
the one that lives on the host side, and a sum of 3 and 3 under 1 for the identifier it would give
the result. -/
theorem step_eq_error_iff_consumed :
    let d : HostDevice := ((HostDevice.new 64 64).hostTensor ⟨.f32, [1]⟩ [0, 0, 128, 63]).2
    let t : HostTensor := ⟨⟨1, ⟨.f32, [1]⟩, .host⟩, [0, 0, 128, 63]⟩
    let start : Pool HostTensor := (Pool.empty.introduce 1 t .host).introduce 2 t .host
    let moved := (Machine.step HostDevice.provider (.transfer .device 1 (.renamed 3)) ⟨start, d⟩).2
    let standing := Function.update (Function.update (Function.update (Function.update
      (fun _ => Standing.unused) 1 (.live .host)) 2 (.live .host)) 1 (.consumed 3)) 3 (.live .device)
    Traced standing moved.pool ∧
      (moved.step HostDevice.provider (.compute .add [1, 2] 4)).1 =
        .error (.protocol (.consumedIdentifier 1 3)) ∧
      (moved.step HostDevice.provider (.compute .add [3, 3] 1)).1 =
        .error (.protocol (.duplicateIdentifier 1)) := by
  intro d t start moved standing
  have hfirst : Traced _ (Pool.empty.introduce 1 t .host) :=
    Traced.new.input (insert_of_fresh rfl t .host)
  have hstart : Traced _ start := hfirst.input (insert_of_fresh rfl t .host)
  have htraced : Traced standing moved.pool :=
    hstart.step HostDevice.provider d (.transfer .device 1 (.renamed 3))
  have hsum := (htraced.step_eq_error_iff HostDevice.provider moved.device
    (.compute .add [1, 2] 4)).1 (.protocol (.consumedIdentifier 1 3)) nofun
  have hdouble := (htraced.step_eq_error_iff HostDevice.provider moved.device
    (.compute .add [3, 3] 1)).1 (.protocol (.duplicateIdentifier 1)) nofun
  exact ⟨htraced, hsum.mpr (by decide), hdouble.mpr (by decide)⟩

end Pool.Traced

end TensorMachine
