import TensorMachine.Device.Symbolic
import TensorMachine.Machine.Basic

/-!
# Verification

A program is verified by executing it on the symbolic device, with the declared inputs in the pool.
This finds every breach of protocol or lifecycle before a device with storage is involved.
-/

namespace TensorMachine

/-- A failure of a run, with the index of the record that failed unless it lies in the input or
output declarations, in the binding of inputs or in front of the records. -/
structure Fault where
  record : Option Nat
  error : ExecutionError
  deriving DecidableEq

namespace Program

def declare (p : Pool TensorType) : List Input → Except ExecutionError (Pool TensorType)
  | [] => .ok p
  | i :: rest =>
    match p.insert i.id i.type (.resident .host) with
    | .ok p' => declare p' rest
    | .error (.duplicateIdentifier id) => .error (.protocol (.duplicateInput id))
    | .error e => .error (.ofPool e)

def missingOutput? {η : Type} (outputs : List TensorId) (p : Pool η) : Option TensorId :=
  outputs.find? fun id => !p.contains id

def verify (p : Program) : Except Fault Unit :=
  match declare .empty p.inputs with
  | .error e => .error ⟨none, e⟩
  | .ok pool =>
    let progress := Machine.advance .symbolic p.instructions 0 ⟨pool, ()⟩
    match progress.stopped with
    | some e => .error ⟨some progress.executed, e⟩
    | none =>
      match missingOutput? p.outputs progress.machine.pool with
      | some id => .error ⟨none, .protocol (.missingOutput id)⟩
      | none => .ok ()

end Program

end TensorMachine
