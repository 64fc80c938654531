import TensorMachine.Kernel.Basic
import TensorMachine.Tensor.Residence
import TensorMachine.Tensor.Type

/-!
# Instructions

The steps of a program: storage is allocated, changes sides, is computed with and goes away.
-/

namespace TensorMachine

/-- The operations that an instruction may name. -/
inductive Opcode where
  | allocate
  | toDevice
  | fromDevice
  | deallocate
  | compute
  deriving DecidableEq

/-- The identifier of a tensor after a transfer: it keeps the one that it has, or goes on under
another and gives the old one up. -/
inductive Target where
  | inPlace
  | renamed (id : TensorId)
  deriving DecidableEq

/-- A step of a program. -/
inductive Instruction where
  | allocate (output : TensorId) (type : TensorType) (residence : Residence)
  | transfer (destination : Residence) (input : TensorId) (target : Target)
  | deallocate (input : TensorId) (force : Bool)
  | compute (kernel : Kernel) (inputs : List TensorId) (output : TensorId)
  deriving DecidableEq

namespace Opcode

def name : Opcode → String
  | allocate => "allocate"
  | toDevice => "to_device"
  | fromDevice => "from_device"
  | deallocate => "deallocate"
  | compute => "compute"

def transferTo : Residence → Opcode
  | .host => fromDevice
  | .device => toDevice

end Opcode

namespace Target

def ids : Target → List TensorId
  | inPlace => []
  | renamed id => [id]

/-- The text of the target in that of an instruction. -/
def text : Target → String
  | inPlace => "in_place"
  | renamed id => s!"dst={id}"

end Target

namespace Instruction

def opcode : Instruction → Opcode
  | allocate .. => .allocate
  | transfer destination .. => .transferTo destination
  | deallocate .. => .deallocate
  | compute .. => .compute

/-- The identifiers that have to be live before the instruction. -/
def inputs : Instruction → List TensorId
  | allocate .. => []
  | transfer _ input _ => [input]
  | deallocate input _ => [input]
  | compute _ inputs _ => inputs

def outputs : Instruction → List TensorId
  | allocate output .. => [output]
  | transfer _ _ target => target.ids
  | deallocate .. => []
  | compute _ _ output => [output]

def text : Instruction → String
  | allocate output type residence =>
    s!"Allocate(dst={output}, desc={type.text}, placement={residence.name})"
  | transfer .device input target => s!"ToDevice(src={input}, {target.text})"
  | transfer .host input target => s!"FromDevice(src={input}, {target.text})"
  | deallocate input force => s!"Deallocate(src={input}, force={force})"
  | compute kernel inputs output =>
    let operands := Text.listingOfNats (inputs.map UInt32.toNat)
    s!"Compute({kernel.title}, srcs={operands}, dst={output})"

end Instruction

end TensorMachine
