import TensorMachine.Device.Provider
import TensorMachine.Machine.Error

/-!
# Machines

A machine is a pool together with a device. An instruction is first planned on the pool alone: the
plan either finds the breach of protocol or lifecycle, or resolves the identifiers to handles and
yields an action. An action calls the device exactly once and then puts the answer into the pool.
If the device refuses, the pool keeps all it had, except that the identifier of a release is freed
in any case. The pool has a say of its own when an answer is put into it, and a handle that it
refuses is gone.
-/

namespace TensorMachine

structure Machine (σ η : Type) where
  pool : Pool η
  device : σ

/-- A call of a device with all handles at hand. -/
inductive Action (η : Type) where
  | allocate (output : TensorId) (type : TensorType) (residence : Residence)
  | transfer (destination : Residence) (entry : Entry η) (target : Target)
  | release (entry : Entry η) (force : Bool)
  | compute (kernel : Kernel) (operands : List η) (output : TensorId)

/-- The progress of a list of instructions: how many were executed, what stopped the next one if
not all were, and the machine behind them. -/
structure Progress (σ η : Type) where
  executed : Nat
  stopped : Option ExecutionError
  machine : Machine σ η

variable {σ η : Type}

/-- The answer of a pool, its refusal taken as a cause for a run to stop. -/
def ExecutionError.pool {α : Type} (answer : Except PoolError α) : Except ExecutionError α :=
  answer.mapError .ofPool

namespace Instruction

def operand (p : Pool η) (id : TensorId) : Except ExecutionError η := do
  let entry ← ExecutionError.pool (p.get id)
  if entry.residence = .device then .ok entry.handle
  else .error (.residencyMismatch id (.resident .device) entry.state)

def operands (p : Pool η) : List TensorId → Except ExecutionError (List η)
  | [] => .ok []
  | id :: rest => do
    let handle ← operand p id
    let handles ← operands p rest
    .ok (handle :: handles)

def checkArity (kernel : Kernel) (count : Nat) : Except ExecutionError Unit :=
  if count = kernel.arity then .ok () else .error (.protocol (.arityMismatch kernel count))

/-- The action of an instruction on a pool. What an instruction reads is checked before what it
introduces. -/
def plan (p : Pool η) : Instruction → Except ExecutionError (Action η)
  | .allocate output type residence => do
    ExecutionError.pool (p.ensureFresh output)
    .ok (.allocate output type residence)
  | .transfer destination input target => do
    let entry ← ExecutionError.pool (p.checkTransition input (.resident destination))
    match target with
    | .inPlace => .ok (.transfer destination entry .inPlace)
    | .renamed id =>
      ExecutionError.pool (p.ensureFresh id)
      .ok (.transfer destination entry (.renamed id))
  | .deallocate input force => do
    let entry ← ExecutionError.pool (p.checkTransition input .freed)
    .ok (.release entry force)
  | .compute kernel inputs output => do
    checkArity kernel inputs.length
    let handles ← operands p inputs
    ExecutionError.pool (p.ensureFresh output)
    .ok (.compute kernel handles output)

end Instruction

namespace Action

def deliver (m : Machine σ η) (output : TensorId) (handle : η) (residence : Residence) (s : σ) :
    Except ExecutionError Unit × Machine σ η :=
  match m.pool.insert output handle (.resident residence) with
  | .ok pool => (.ok (), ⟨pool, s⟩)
  | .error e => (.error (.ofPool e), ⟨m.pool, s⟩)

/-- Moves an identifier whose storage has moved to a side, or gives its handle to the identifier
under which it goes on. -/
def settle (p : Pool η) (destination : Residence) (id : TensorId) :
    Target → Except PoolError Unit × Pool η
  | .inPlace =>
    match p.transition id (.resident destination) with
    | .ok (_, p') => (.ok (), p')
    | .error e => (.error e, p)
  | .renamed output =>
    match p.consume id output with
    | .ok (handle, p') =>
      match p'.insert output handle (.resident destination) with
      | .ok p'' => (.ok (), p'')
      | .error e => (.error e, p')
    | .error e => (.error e, p)

def perform (P : Provider σ η) (operation : Opcode) (m : Machine σ η) : Action η →
    Except ExecutionError Unit × Machine σ η
  | allocate output type residence =>
    match P.allocate type residence m.device with
    | (.ok handle, s) => deliver m output handle residence s
    | (.error e, s) => (.error (.device operation e), ⟨m.pool, s⟩)
  | transfer destination entry target =>
    match P.transfer destination entry.handle m.device with
    | (.ok (), handle, s) =>
      let (answer, pool) :=
        settle (m.pool.place entry.id handle entry.residence) destination entry.id target
      (ExecutionError.pool answer, ⟨pool, s⟩)
    | (.error e, handle, s) =>
      (.error (.device operation e), ⟨m.pool.place entry.id handle entry.residence, s⟩)
  | release entry force =>
    let (answer, s) := P.release entry.handle force m.device
    (answer.mapError (.device operation), ⟨m.pool.retire entry.id .freed, s⟩)
  | compute kernel operands output =>
    match P.compute kernel operands m.device with
    | (.ok handle, s) => deliver m output handle .device s
    | (.error e, s) => (.error (.device operation e), ⟨m.pool, s⟩)

end Action

def Machine.step (P : Provider σ η) (i : Instruction) (m : Machine σ η) :
    Except ExecutionError Unit × Machine σ η :=
  match i.plan m.pool with
  | .error e => (.error e, m)
  | .ok action => action.perform P i.opcode m

/-- Executes instructions in order up to the first that fails; `executed` have been before. -/
def Machine.advance (P : Provider σ η) : List Instruction → Nat → Machine σ η → Progress σ η
  | [], executed, m => ⟨executed, none, m⟩
  | i :: rest, executed, m =>
    match m.step P i with
    | (.ok (), m') => Machine.advance P rest (executed + 1) m'
    | (.error e, m') => ⟨executed, some e, m'⟩

end TensorMachine
