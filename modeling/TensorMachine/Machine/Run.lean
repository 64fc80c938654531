import TensorMachine.Machine.Binding
import TensorMachine.Machine.Report

/-!
# Runs

A run executes a program on a device with a pool of its own. The handles that the caller supplies
belong to the run from its beginning: whatever happens, each of them, and each that the device
makes during the run, is either handed back as an output or released exactly once.
-/

namespace TensorMachine

/-- Whether a run verifies its program before it calls the device, uses force for the releases at
its end, and hands the declared outputs back instead of releasing them. -/
structure RunConfig where
  verifyFirst : Bool := false
  forceTeardown : Bool := true
  retainOutputs : Bool := true
  deriving DecidableEq

structure Teardown (σ : Type) where
  released : Nat
  diagnostics : List Diagnostic
  device : σ

variable {σ η : Type}

def releaseAll (P : Provider σ η) (force : Bool) : List (TensorId × η) → σ → Teardown σ
  | [], s => ⟨0, [], s⟩
  | (id, handle) :: rest, s =>
    match P.release handle force s with
    | (.ok (), s') =>
      let teardown := releaseAll P force rest s'
      { teardown with released := teardown.released + 1 }
    | (.error e, s') =>
      let teardown := releaseAll P force rest s'
      { teardown with diagnostics := ⟨id, e⟩ :: teardown.diagnostics }

/-- Introduces supplied handles into a pool, all on the host side, up to the first that the pool
refuses. That one and those behind it are gone. -/
def Pool.bindInputs : List (TensorId × η) → Pool η → Except PoolError Unit × Pool η
  | [], p => (.ok (), p)
  | (id, handle) :: rest, p =>
    match p.insert id handle (.resident .host) with
    | .ok p' => bindInputs rest p'
    | .error e => (.error e, p)

/-- Takes the handles of identifiers out of a pool, in order. An identifier that is listed again is
passed over. -/
def Pool.takeOutputs : List TensorId → Pool η → List (TensorId × η) × Pool η
  | [], p => ([], p)
  | id :: rest, p =>
    match p.remove id with
    | .ok (handle, p') =>
      let (taken, p'') := takeOutputs rest p'
      ((id, handle) :: taken, p'')
    | .error _ => takeOutputs rest p

/-- The report of a run that stopped before its first instruction with some handles in its hands.
All of them are released. -/
def reject (P : Provider σ η) (cfg : RunConfig) (fault : Fault)
    (surviving : List (TensorId × State)) (handles : List (TensorId × η)) (s : σ) :
    Report η × σ :=
  let teardown := releaseAll P cfg.forceTeardown handles s
  ({ status := .failed fault
     executed := 0
     surviving := surviving
     outputs := []
     released := teardown.released
     diagnostics := teardown.diagnostics },
    teardown.device)

namespace Progress

/-- How a run with declared outputs ends after its instructions: the first declared output that is
not live is a failure of its own. -/
def status (progress : Progress σ η) (outputs : List TensorId) : Status :=
  match progress.stopped with
  | some e => .failed ⟨some progress.executed, e⟩
  | none =>
    match Program.missingOutput? outputs progress.machine.pool with
    | some id => .failed ⟨none, .protocol (.missingOutput id)⟩
    | none => .completed

def handOver (progress : Progress σ η) (cfg : RunConfig) (outputs : List TensorId) :
    List (TensorId × η) × Pool η :=
  match progress.status outputs with
  | .completed =>
    if cfg.retainOutputs then Pool.takeOutputs outputs progress.machine.pool
    else ([], progress.machine.pool)
  | .failed _ => ([], progress.machine.pool)

end Progress

namespace Program

def screen (p : Program) (cfg : RunConfig) : Except Fault Unit :=
  if cfg.verifyFirst then p.verify else .ok ()

def accept (p : Program) (cfg : RunConfig) (supplied : List TensorId) : Except Fault Unit :=
  match p.screen cfg with
  | .error fault => .error fault
  | .ok () =>
    match p.checkBindings supplied with
    | .error e => .error ⟨none, .protocol e⟩
    | .ok () => .ok ()

def execute (P : Provider σ η) (cfg : RunConfig) (p : Program) (inputs : Pool η) (s : σ) :
    Report η × σ :=
  let progress := Machine.advance P p.instructions 0 ⟨inputs, s⟩
  let (outputs, pool) := progress.handOver cfg p.outputs
  let teardown := releaseAll P cfg.forceTeardown pool.drain.1 progress.machine.device
  ({ status := progress.status p.outputs
     executed := progress.executed
     surviving := progress.machine.pool.snapshot
     outputs := outputs
     released := teardown.released
     diagnostics := teardown.diagnostics },
    teardown.device)

def run (P : Provider σ η) (cfg : RunConfig) (p : Program) (inputs : List (TensorId × η)) (s : σ) :
    Report η × σ :=
  match p.accept cfg (inputs.map Prod.fst) with
  | .error fault => reject P cfg fault [] inputs s
  | .ok () =>
    match Pool.bindInputs inputs .empty with
    | (.error e, pool) => reject P cfg ⟨none, .ofPool e⟩ pool.snapshot pool.drain.1 s
    | (.ok (), pool) => p.execute P cfg pool s

/-- Runs the program that a byte string encodes. Supplied handles are released even if the bytes
are no program. -/
def runBytes (P : Provider σ η) (cfg : RunConfig) (bytes : Bytes) (inputs : List (TensorId × η))
    (s : σ) : Report η × σ :=
  match decode bytes with
  | .error e => reject P cfg ⟨e.record?, .decode e⟩ [] inputs s
  | .ok p => p.run P cfg inputs s

end Program

end TensorMachine
