import TensorMachine.Program.Basic
import TensorMachine.Program.Record

/-!
# Programs as bytes

The binary layout of a program is a header of sixteen bytes, the declared inputs, the output
identifiers, and the records. The layout is a total function; encoding refuses the programs whose
counts do not fit their fields, or that rename a tensor to itself, since such a transfer would read
back as one in place. The first violation is reported: the numbers of bindings, then the input
types, then the instructions, in order.
-/

namespace TensorMachine

inductive EncodeError where
  | tooManyDims (count : Nat)
  | tooManyOperands (record count : Nat)
  | tooManyBindings (count : Nat)
  | selfTransfer (record : Nat) (id : TensorId)
  deriving DecidableEq

def EncodeError.message : EncodeError → String
  | tooManyDims count => s!"Tensor descriptor has {count} dimensions, at most 255 can be encoded"
  | tooManyOperands record count =>
    s!"Record {record}: {count} operands, at most 255 can be encoded"
  | tooManyBindings count => s!"Program declares {count} bindings, at most 65535 can be encoded"
  | selfTransfer record id =>
    s!"Record {record}: transfer of {id} names itself as the new identifier"

/-!
### Layout
-/

namespace Program

/-- The four bytes at the front of every program: `TXPG`. -/
def magic : Bytes := [0x54, 0x58, 0x50, 0x47]

def version : UInt16 := 1

def Input.bytes (i : Input) : Bytes := (Field.u32 i.id).bytes ++ i.type.bytes

/-- The header: magic, version, flags, and the numbers of records, inputs and outputs. -/
def headerBytes (records inputs outputs : Nat) : Bytes :=
  magic ++ (Field.u16 version).bytes ++ (Field.u16 0).bytes ++
    (Field.u32 (UInt32.ofNat records)).bytes ++
    (Field.u16 (UInt16.ofNat inputs)).bytes ++ (Field.u16 (UInt16.ofNat outputs)).bytes

/-- The bytes of the program, counts taken modulo the width of their fields. -/
def bytes (p : Program) : Bytes :=
  headerBytes p.instructions.length p.inputs.length p.outputs.length ++
    p.inputs.flatMap Input.bytes ++ identifierBytes p.outputs ++
    p.instructions.flatMap fun i => i.record.bytes

end Program

/-!
### Refusals
-/

def TensorType.checkRank (t : TensorType) : Except EncodeError Unit :=
  if t.rank ≤ 255 then .ok () else .error (.tooManyDims t.rank)

/-- Refuses an instruction that has no record; `index` is its place in the program. -/
def Instruction.checkEncodable (index : Nat) : Instruction → Except EncodeError Unit
  | allocate _ type _ => type.checkRank
  | transfer _ input (.renamed id) =>
    if id = input then .error (.selfTransfer index id) else .ok ()
  | transfer _ _ .inPlace => .ok ()
  | deallocate .. => .ok ()
  | compute _ inputs _ =>
    if inputs.length ≤ 255 then .ok () else .error (.tooManyOperands index inputs.length)

namespace Program

def checkBindingCount (count : Nat) : Except EncodeError Unit :=
  if count ≤ 65535 then .ok () else .error (.tooManyBindings count)

def checkInputs : List Input → Except EncodeError Unit
  | [] => .ok ()
  | i :: rest =>
    match i.type.checkRank with
    | .ok () => checkInputs rest
    | .error e => .error e

/-- Refuses the first instruction without a record; the first of the list stands at `index`. -/
def checkInstructions (index : Nat) : List Instruction → Except EncodeError Unit
  | [] => .ok ()
  | i :: rest =>
    match i.checkEncodable index with
    | .ok () => checkInstructions (index + 1) rest
    | .error e => .error e

def checkEncodable (p : Program) : Except EncodeError Unit := do
  checkBindingCount p.inputs.length
  checkBindingCount p.outputs.length
  checkInputs p.inputs
  checkInstructions 0 p.instructions

def encode (p : Program) : Except EncodeError Bytes := do
  p.checkEncodable
  .ok p.bytes

end Program

end TensorMachine
