import TensorMachine.Machine.Run
import TensorMachine.Tensor.Store

/-!
# Runs on a store

A run that keeps its tensors in a store. An instruction asks the store, calls the device and changes
the store in the order in which a machine does both, though not by a plan: what one step has changed
stays when the next one fails.
-/

namespace TensorMachine.Store

variable {σ η α : Type}

open Steps

/-!
### Instructions
-/

/-- A call of the store, its refusal taken as a cause for a run to stop. -/
def onStore (call : Steps PoolError (Store η) α) : Steps ExecutionError (Store η × σ) α := fun m =>
  (ExecutionError.pool (call m.1).1, (call m.1).2, m.2)

def onDevice (operation : Opcode) (call : σ → Except DeviceError α × σ) :
    Steps ExecutionError (Store η × σ) α := fun m =>
  ((call m.2).1.mapError (.device operation), m.1, (call m.2).2)

/-- The device moves storage and changes its handle where it lies. -/
def moveStorage (P : Provider σ η) (destination : Residence) (id : TensorId) :
    Steps ExecutionError (Store η × σ) Unit := do
  let slot ← onStore (ask (·.get id))
  fun m =>
    let moved := P.transfer destination slot.handle m.2
    (moved.1.mapError (.device (.transferTo destination)),
      m.1.update id fun t => { t with handle := moved.2.1 }, moved.2.2)

def checkOperand (r : Store η) (id : TensorId) : Except ExecutionError Unit := do
  let slot ← ExecutionError.pool (r.get id)
  if slot.state = .resident .device then .ok ()
  else .error (.residencyMismatch id (.resident .device) slot.state)

def fetchHandle (r : Store η) (id : TensorId) : Except ExecutionError η := do
  let slot ← ExecutionError.pool (r.get id)
  .ok slot.handle

/-- The steps of an instruction. -/
def dispatch (P : Provider σ η) : Instruction → Steps ExecutionError (Store η × σ) Unit
  | .allocate output type residence => do
    onStore (ask (·.ensureFresh output))
    let handle ← onDevice .allocate (P.allocate type residence)
    onStore (insert output handle (.resident residence))
  | .transfer destination input .inPlace => do
    let _ ← onStore (ask (·.checkTransition input (.resident destination)))
    moveStorage P destination input
    let _ ← onStore (transition input (.resident destination))
    pure ()
  | .transfer destination input (.renamed output) => do
    let _ ← onStore (ask (·.checkTransition input (.resident destination)))
    onStore (ask (·.ensureFresh output))
    moveStorage P destination input
    let handle ← onStore (consume input output)
    onStore (insert output handle (.resident destination))
  | .deallocate input force => do
    let handle ← onStore (remove input)
    onDevice .deallocate (P.release handle force)
  | .compute kernel inputs output => do
    ask fun _ => Instruction.checkArity kernel inputs.length
    ask fun m => inputs.forM m.1.checkOperand
    onStore (ask (·.ensureFresh output))
    let handles ← ask fun m => inputs.mapM m.1.fetchHandle
    let handle ← onDevice .compute (P.compute kernel handles)
    onStore (insert output handle (.resident .device))

/-!
### Runs
-/

structure Progress (σ η : Type) where
  executed : Nat
  stopped : Option ExecutionError
  store : Store η
  device : σ

/-- Executes instructions in order up to the first that fails; `executed` have been before. -/
def advance (P : Provider σ η) : List Instruction → Nat → Store η × σ → Progress σ η
  | [], executed, m => ⟨executed, none, m.1, m.2⟩
  | i :: rest, executed, m =>
    match dispatch P i m with
    | (.ok (), m') => advance P rest (executed + 1) m'
    | (.error e, m') => ⟨executed, some e, m'.1, m'.2⟩

def bindInputs : List (TensorId × η) → Store η → Except PoolError Unit × Store η
  | [], r => (.ok (), r)
  | (id, handle) :: rest, r =>
    match insert id handle (.resident .host) r with
    | (.ok (), r') => bindInputs rest r'
    | (.error e, r') => (.error e, r')

/-- Takes the handles of declared outputs out, passing over an identifier that is listed again. -/
def takeOutputs : List TensorId → Store η → List (TensorId × η) × Store η
  | [], r => ([], r)
  | id :: rest, r =>
    match remove id r with
    | (.ok handle, r') =>
      let (taken, r'') := takeOutputs rest r'
      ((id, handle) :: taken, r'')
    | (.error _, r') => takeOutputs rest r'

namespace Progress

/-- How a run with declared outputs ends after its instructions. -/
def status (progress : Progress σ η) (outputs : List TensorId) : Status :=
  match progress.stopped with
  | some e => .failed ⟨some progress.executed, e⟩
  | none =>
    match outputs.find? fun id => !progress.store.contains id with
    | some id => .failed ⟨none, .protocol (.missingOutput id)⟩
    | none => .completed

/-- The handles that a run hands back and the store without them. -/
def handOver (progress : Progress σ η) (cfg : RunConfig) (outputs : List TensorId) :
    List (TensorId × η) × Store η :=
  match progress.status outputs with
  | .completed =>
    if cfg.retainOutputs then takeOutputs outputs progress.store else ([], progress.store)
  | .failed _ => ([], progress.store)

end Progress

def execute (P : Provider σ η) (cfg : RunConfig) (p : Program) (inputs : Store η) (s : σ) :
    Report η × σ :=
  let progress := advance P p.instructions 0 (inputs, s)
  let (outputs, store) := progress.handOver cfg p.outputs
  let teardown := releaseAll P cfg.forceTeardown store.drain.1 progress.device
  ({ status := progress.status p.outputs
     executed := progress.executed
     surviving := progress.store.snapshot
     outputs := outputs
     released := teardown.released
     diagnostics := teardown.diagnostics },
    teardown.device)

/-- The run of a program that keeps its tensors in a store. -/
def run (P : Provider σ η) (cfg : RunConfig) (p : Program) (inputs : List (TensorId × η)) (s : σ) :
    Report η × σ :=
  match p.accept cfg (inputs.map Prod.fst) with
  | .error fault => reject P cfg fault [] inputs s
  | .ok () =>
    match bindInputs inputs .empty with
    | (.error e, store) => reject P cfg ⟨none, .ofPool e⟩ store.snapshot store.drain.1 s
    | (.ok (), store) => execute P cfg p store s

end TensorMachine.Store
