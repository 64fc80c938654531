import TensorMachine.Machine.Run
import Mathlib.Data.List.Basic

/-!
# Recorded runs

A provider is recorded by keeping every call with its answer beside the state of the device. The
recorded provider gives the same answers, so that a recorded run takes the course of the run that
it records.
-/

namespace TensorMachine

variable {σ τ η : Type}

/-- A call of a device together with its answer. A transfer also tells which handle it leaves. -/
inductive Exchange (η : Type) where
  | allocate (type : TensorType) (residence : Residence) (answer : Except DeviceError η)
  | release (handle : η) (force : Bool) (answer : Except DeviceError Unit)
  | transfer (destination : Residence) (handle : η) (answer : Except DeviceError Unit) (left : η)
  | compute (kernel : Kernel) (operands : List η) (answer : Except DeviceError η)

namespace Exchange

/-- The handle that the device made in the call. -/
def made? : Exchange η → Option η
  | allocate _ _ answer => answer.toOption
  | release _ _ _ => none
  | transfer _ _ _ _ => none
  | compute _ _ answer => answer.toOption

/-- The handle that was passed to the device for its release, whatever the device answered. -/
def released? : Exchange η → Option η
  | allocate _ _ _ => none
  | release handle _ _ => some handle
  | transfer _ _ _ _ => none
  | compute _ _ _ => none

/-- The handles that the device made in some calls, in order. -/
def made (calls : List (Exchange η)) : List η := calls.filterMap made?

/-- The handles that were passed to the device for their release, in order. -/
def released (calls : List (Exchange η)) : List η := calls.filterMap released?

lemma made_append (calls more : List (Exchange η)) :
    made (calls ++ more) = made calls ++ made more :=
  List.filterMap_append

lemma released_append (calls more : List (Exchange η)) :
    released (calls ++ more) = released calls ++ released more :=
  List.filterMap_append

end Exchange

/-- The provider that keeps its calls, the last one at the end. -/
def Provider.recorded (P : Provider σ η) : Provider (σ × List (Exchange η)) η where
  name := P.name
  allocate type residence s :=
    let (answer, s') := P.allocate type residence s.1
    (answer, s', s.2 ++ [.allocate type residence answer])
  release handle force s :=
    let (answer, s') := P.release handle force s.1
    (answer, s', s.2 ++ [.release handle force answer])
  transfer destination handle s :=
    let (answer, left, s') := P.transfer destination handle s.1
    (answer, left, s', s.2 ++ [.transfer destination handle answer left])
  compute kernel operands s :=
    let (answer, s') := P.compute kernel operands s.1
    (answer, s', s.2 ++ [.compute kernel operands answer])

namespace Provider

variable {P : Provider σ η} {s s' : σ × List (Exchange η)}

lemma allocate_of_recorded {type : TensorType} {residence : Residence}
    {answer : Except DeviceError η}
    (h : P.recorded.allocate type residence s = (answer, s')) :
    P.allocate type residence s.1 = (answer, s'.1) ∧
      s'.2 = s.2 ++ [.allocate type residence answer] := by
  cases h
  exact ⟨rfl, rfl⟩

lemma release_of_recorded {handle : η} {force : Bool} {answer : Except DeviceError Unit}
    (h : P.recorded.release handle force s = (answer, s')) :
    P.release handle force s.1 = (answer, s'.1) ∧
      s'.2 = s.2 ++ [.release handle force answer] := by
  cases h
  exact ⟨rfl, rfl⟩

lemma transfer_of_recorded {destination : Residence} {handle left : η}
    {answer : Except DeviceError Unit}
    (h : P.recorded.transfer destination handle s = (answer, left, s')) :
    P.transfer destination handle s.1 = (answer, left, s'.1) ∧
      s'.2 = s.2 ++ [.transfer destination handle answer left] := by
  cases h
  exact ⟨rfl, rfl⟩

lemma compute_of_recorded {kernel : Kernel} {operands : List η} {answer : Except DeviceError η}
    (h : P.recorded.compute kernel operands s = (answer, s')) :
    P.compute kernel operands s.1 = (answer, s'.1) ∧
      s'.2 = s.2 ++ [.compute kernel operands answer] := by
  cases h
  exact ⟨rfl, rfl⟩

end Provider

/-- The machine without the record of its device. -/
def Machine.plain (m : Machine (σ × τ) η) : Machine σ η := ⟨m.pool, m.device.1⟩

/-- The progress without the record of the device. -/
def Progress.plain (progress : Progress (σ × τ) η) : Progress σ η :=
  ⟨progress.executed, progress.stopped, progress.machine.plain⟩

lemma Action.perform_recorded (P : Provider σ η) (operation : Opcode)
    (m : Machine (σ × List (Exchange η)) η) (action : Action η) :
    action.perform P operation m.plain =
      ((action.perform P.recorded operation m).1,
        (action.perform P.recorded operation m).2.plain) := by
  cases action with
  | allocate output type residence =>
    rcases hcall : P.allocate type residence m.device.1 with ⟨e | handle, s⟩
    · simp only [perform, Provider.recorded, Machine.plain, hcall]
    · simp only [perform, deliver, Provider.recorded, Machine.plain, hcall]
      cases m.pool.insert output handle (.resident residence) <;> rfl
  | transfer destination entry target =>
    rcases hcall : P.transfer destination entry.handle m.device.1 with ⟨e | _, handle, s⟩ <;>
      simp only [perform, Provider.recorded, Machine.plain, hcall]
  | release entry force => rfl
  | compute kernel operands output =>
    rcases hcall : P.compute kernel operands m.device.1 with ⟨e | handle, s⟩
    · simp only [perform, Provider.recorded, Machine.plain, hcall]
    · simp only [perform, deliver, Provider.recorded, Machine.plain, hcall]
      cases m.pool.insert output handle (.resident .device) <;> rfl

lemma Machine.step_recorded (P : Provider σ η) (i : Instruction)
    (m : Machine (σ × List (Exchange η)) η) :
    m.plain.step P i = ((m.step P.recorded i).1, (m.step P.recorded i).2.plain) := by
  simp only [step, plain]
  cases i.plan m.pool with
  | error e => rfl
  | ok action => exact Action.perform_recorded P i.opcode m action

/-- A recorded machine comes as far as the machine that it records. -/
theorem Machine.advance_recorded (P : Provider σ η) (instructions : List Instruction) (n : Nat)
    (m : Machine (σ × List (Exchange η)) η) :
    advance P instructions n m.plain = (advance P.recorded instructions n m).plain := by
  induction instructions generalizing n m with
  | nil => rfl
  | cons i rest ih =>
    rw [advance, advance, step_recorded]
    rcases m.step P.recorded i with ⟨_ | _, m'⟩
    · rfl
    · exact ih (n + 1) m'

lemma releaseAll_recorded (P : Provider σ η) (force : Bool) (handles : List (TensorId × η)) (s : σ)
    (calls : List (Exchange η)) :
    releaseAll P force handles s =
      ⟨(releaseAll P.recorded force handles (s, calls)).released,
        (releaseAll P.recorded force handles (s, calls)).diagnostics,
        (releaseAll P.recorded force handles (s, calls)).device.1⟩ := by
  induction handles generalizing s calls with
  | nil => rfl
  | cons input handles ih =>
    obtain ⟨id, handle⟩ := input
    rcases hcall : P.release handle force s with ⟨e | _, s'⟩
    · simp only [releaseAll, Provider.recorded, hcall,
        ih s' (calls ++ [.release handle force (.error e)])]
    · simp only [releaseAll, Provider.recorded, hcall,
        ih s' (calls ++ [.release handle force (.ok ())])]

lemma reject_recorded (P : Provider σ η) (cfg : RunConfig) (fault : Fault)
    (surviving : List (TensorId × State)) (handles : List (TensorId × η)) (s : σ)
    (calls : List (Exchange η)) :
    reject P cfg fault surviving handles s =
      ((reject P.recorded cfg fault surviving handles (s, calls)).1,
        (reject P.recorded cfg fault surviving handles (s, calls)).2.1) := by
  simp only [reject, releaseAll_recorded P cfg.forceTeardown handles s calls]

namespace Program

lemma execute_recorded (P : Provider σ η) (cfg : RunConfig) (p : Program) (inputs : Pool η) (s : σ)
    (calls : List (Exchange η)) :
    p.execute P cfg inputs s =
      ((p.execute P.recorded cfg inputs (s, calls)).1,
        (p.execute P.recorded cfg inputs (s, calls)).2.1) := by
  have hadvance := Machine.advance_recorded P p.instructions 0 ⟨inputs, (s, calls)⟩
  simp only [Machine.plain] at hadvance
  simp only [execute, hadvance]
  generalize Machine.advance P.recorded p.instructions 0 ⟨inputs, (s, calls)⟩ = progress
  obtain ⟨executed, stopped, pool, s', calls'⟩ := progress
  have hrelease := fun pool : Pool η =>
    releaseAll_recorded P cfg.forceTeardown pool.drain.1 s' calls'
  simp only [Progress.plain, Machine.plain, hrelease]
  rfl

/-- A recorded run ends with the report and the device of the run that it records. -/
theorem run_recorded (P : Provider σ η) (cfg : RunConfig) (p : Program)
    (inputs : List (TensorId × η)) (s : σ) (calls : List (Exchange η)) :
    p.run P cfg inputs s =
      ((p.run P.recorded cfg inputs (s, calls)).1,
        (p.run P.recorded cfg inputs (s, calls)).2.1) := by
  unfold run
  cases p.accept cfg (inputs.map Prod.fst) with
  | error fault => exact reject_recorded P cfg fault [] inputs s calls
  | ok _ =>
    rcases Pool.bindInputs inputs .empty with ⟨e | _, pool⟩
    · exact reject_recorded P cfg _ pool.snapshot pool.drain.1 s calls
    · exact p.execute_recorded P cfg pool s calls

/-- A recorded run of bytes ends with the report and the device of the run that it records. -/
theorem runBytes_recorded (P : Provider σ η) (cfg : RunConfig) (bytes : Bytes)
    (inputs : List (TensorId × η)) (s : σ) (calls : List (Exchange η)) :
    runBytes P cfg bytes inputs s =
      ((runBytes P.recorded cfg bytes inputs (s, calls)).1,
        (runBytes P.recorded cfg bytes inputs (s, calls)).2.1) := by
  unfold runBytes
  cases decode bytes with
  | error e => exact reject_recorded P cfg _ [] inputs s calls
  | ok p => exact p.run_recorded P cfg inputs s calls

end Program

end TensorMachine
