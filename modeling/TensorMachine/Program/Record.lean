import TensorMachine.Bytes.Field
import TensorMachine.Program.Instruction

/-!
# Records

A record is the frame of an instruction in the binary layout: the tag of its operation, the
identifiers that it reads and introduces, and its parameters as raw bytes. In bytes it is

* the tag, the number of inputs, the number of outputs and a reserved zero, one byte each,
* the number of parameter bytes in two bytes,
* the input identifiers and the output identifiers in four bytes each,
* the parameter bytes.

All integers of the layout have their lowest byte first.
-/

namespace TensorMachine

namespace Opcode

/-- The tag of the operation in the binary layout. -/
def tag : Opcode → UInt8
  | allocate => 1
  | toDevice => 2
  | fromDevice => 3
  | deallocate => 4
  | compute => 5

/-- The operation of a tag, if there is one. -/
def ofTag? (tag : UInt8) : Option Opcode :=
  match tag.toNat with
  | 1 => some allocate
  | 2 => some toDevice
  | 3 => some fromDevice
  | 4 => some deallocate
  | 5 => some compute
  | _ => none

@[simp] theorem ofTag?_tag (op : Opcode) : ofTag? op.tag = some op := by
  cases op <;> rfl

theorem tag_of_ofTag? {tag : UInt8} {op : Opcode} (h : ofTag? tag = some op) : op.tag = tag := by
  unfold ofTag? at h
  split at h <;> cases h <;> exact UInt8.toNat_inj.mp (Eq.symm ‹_›)

end Opcode

/-- The frame of an instruction. -/
structure Record where
  opcode : Opcode
  inputs : List TensorId
  outputs : List TensorId
  params : Bytes
  deriving DecidableEq

def identifierBytes (ids : List TensorId) : Bytes :=
  ids.flatMap fun id => (Field.u32 id).bytes

/-- The bytes of a tensor type: the element code, the rank, and the dimensions. -/
def TensorType.bytes (t : TensorType) : Bytes :=
  t.element.code :: UInt8.ofNat t.rank :: t.dims.flatMap fun d => (Field.u32 d).bytes

def Record.bytes (r : Record) : Bytes :=
  [r.opcode.tag, UInt8.ofNat r.inputs.length, UInt8.ofNat r.outputs.length, 0] ++
    (Field.u16 (UInt16.ofNat r.params.length)).bytes ++
    identifierBytes r.inputs ++ identifierBytes r.outputs ++ r.params

namespace Instruction

def params : Instruction → Bytes
  | allocate _ type residence => residence.code :: type.bytes
  | transfer .. => []
  | deallocate _ force => [if force then 1 else 0]
  | compute kernel .. => [kernel.code]

/-- The frame of the instruction. A transfer in place has no outputs. -/
def record (i : Instruction) : Record :=
  ⟨i.opcode, i.inputs, i.outputs, i.params⟩

end Instruction

end TensorMachine
