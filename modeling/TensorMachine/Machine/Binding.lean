import TensorMachine.Machine.Error
import TensorMachine.Program.Basic

/-!
# Binding of inputs

The caller supplies handles under identifiers. They are bound when every supplied identifier is a
declared one, none is supplied twice and none is left out.
-/

namespace TensorMachine.Program

/-- Refuses the first supplied identifier that is not declared or was supplied before; `seen` holds
those in front. -/
def checkSupplied (p : Program) (seen : List TensorId) : List TensorId → Except ProtocolError Unit
  | [] => .ok ()
  | id :: rest =>
    if p.input? id = none then .error (.unexpectedInput id)
    else if id ∈ seen then .error (.duplicateInput id)
    else p.checkSupplied (id :: seen) rest

def checkBindings (p : Program) (supplied : List TensorId) : Except ProtocolError Unit := do
  p.checkSupplied [] supplied
  match p.inputs.find? (fun i => !supplied.contains i.id) with
  | some i => .error (.missingInput i.id)
  | none => .ok ()

end TensorMachine.Program
