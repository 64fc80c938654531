import TensorMachine.Program.Instruction

/-!
# Programs

A program declares the tensors that its caller supplies, lists its instructions, and names the
tensors that it hands back.
-/

namespace TensorMachine

/-- A tensor that the caller supplies under an identifier before the first instruction. -/
structure Program.Input where
  id : TensorId
  type : TensorType
  deriving DecidableEq

/-- The declared inputs, the instructions in order, and the identifiers handed back at the end. -/
structure Program where
  inputs : List Program.Input
  outputs : List TensorId
  instructions : List Instruction
  deriving DecidableEq

namespace Program

def input? (p : Program) (id : TensorId) : Option Input :=
  p.inputs.find? (·.id == id)

end Program

end TensorMachine
