import TensorMachine.Device.Host
import TensorMachine.Machine.Run
import TensorMachine.Journal.Event

/-!
# Journals of runs

What happens in a run follows from the program, the choices of the caller, the identifiers that
were supplied and the report: the journal of a run is a function of these and is written after the
run is over. The same holds for single instructions, whose events follow from their outcome.
-/

namespace TensorMachine

def HostDevice.unpinJournal (d : HostDevice) (serial : Nat) : List Event :=
  if (d.unpin serial).deferred.length < d.deferred.length then [.releaseReclaimed serial] else []

namespace Instruction

/-- What an executed instruction changed in the pool. -/
def changes : Instruction → List Event
  | allocate output _ residence => [.tensorIntroduced output (.resident residence)]
  | transfer destination input .inPlace =>
    [.tensorMoved input (.resident destination.opposite) (.resident destination)]
  | transfer destination input (.renamed output) =>
    [.tensorRetired input (.consumed output),
      .tensorIntroduced output (.resident destination)]
  | deallocate input _ => [.tensorRetired input .freed]
  | compute _ _ output => [.tensorIntroduced output (.resident .device)]

/-- What an instruction with an outcome changed in the pool. A release that the device refused has
freed its identifier; no other failure changes anything. -/
def journal (i : Instruction) : Except ExecutionError Unit → List Event
  | .ok () => i.changes
  | .error (.device ..) =>
    match i with
    | deallocate .. => i.changes
    | _ => []
  | .error _ => []

end Instruction

namespace Program

/-- The changes in the pool by the first `executed` instructions and by the one that stopped. -/
def changes (instructions : List Instruction) (executed : Nat) (stopped : Option ExecutionError) :
    List Event :=
  (instructions.take executed).flatMap Instruction.changes ++
    match stopped, instructions[executed]? with
    | some e, some i => i.journal (.error e)
    | _, _ => []

/-- The introduction of declared inputs, up to the first that repeats one of those `seen`. -/
def declarationJournal (seen : List TensorId) : List Input → List Event
  | [] => []
  | i :: rest =>
    if i.id ∈ seen then []
    else .tensorIntroduced i.id (.resident .host) :: declarationJournal (i.id :: seen) rest

def verificationJournal (p : Program) : List Event :=
  declarationJournal [] p.inputs ++
    match declare .empty p.inputs with
    | .error _ => []
    | .ok pool =>
      let progress := Machine.advance .symbolic p.instructions 0 ⟨pool, ()⟩
      changes p.instructions progress.executed progress.stopped

/-- The executed instructions with the events before and after each; the first one has an index. -/
def recordJournal (index : Nat) : List Instruction → List Event
  | [] => []
  | i :: rest => .recordStarted index i :: i.changes ++ recordJournal (index + 1) rest

end Program

namespace Report

variable {η : Type}

def releaseJournal (r : Report η) : List Event :=
  r.diagnostics.map fun d => .releaseFailed d.id d.error

def instructionJournal (r : Report η) (instructions : List Instruction) : List Event :=
  Program.recordJournal 0 (instructions.take r.executed) ++
    match r.status, instructions[r.executed]? with
    | .failed ⟨some index, e⟩, some i =>
      .recordStarted index i :: i.journal (.error e) ++ [.recordFailed index i.opcode e]
    | _, _ => []

def closing (r : Report η) : Event :=
  match r.status with
  | .completed => .runCompleted r.executed r.outputs.length r.released
  | .failed fault => .runFailed fault r.released

end Report

namespace Program

variable {η : Type}

def runJournal (device : String) (cfg : RunConfig) (p : Program) (supplied : List TensorId)
    (r : Report η) : List Event :=
  .runStarted device p.size :: (if cfg.verifyFirst then p.verificationJournal else []) ++
    match p.screen cfg, p.checkBindings supplied with
    | .error fault, _ => .programRejected fault.error :: r.releaseJournal
    | .ok (), .error e => .bindingFailed (.protocol e) :: r.releaseJournal
    | .ok (), .ok () =>
      supplied.map (fun id => .tensorIntroduced id (.resident .host)) ++
        r.instructionJournal p.instructions ++
        r.outputs.map (fun (id, _) => .tensorRetired id .freed) ++
        r.releaseJournal ++ [r.closing]

def runBytesJournal (device : String) (cfg : RunConfig) (bytes : Bytes) (supplied : List TensorId)
    (r : Report η) : List Event :=
  match decode bytes with
  | .error e => .programUnreadable e :: r.releaseJournal
  | .ok p => .programDecoded p.size :: p.runJournal device cfg supplied r

end Program

end TensorMachine
