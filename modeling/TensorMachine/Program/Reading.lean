import TensorMachine.Program.Layout

/-!
# Programs from bytes

A program is read from the front: header, inputs, outputs, records. Flags, reserved bytes and
parameter bytes behind those that an operation needs are skipped, so that older readers accept
newer programs. Nothing may follow the last record.

The parameters of a record are read from a window of their own: a window that is too short makes
the record malformed, it does not truncate the program.
-/

namespace TensorMachine

inductive OperandSide where
  | inputs
  | outputs
  deriving DecidableEq

def OperandSide.name : OperandSide → String
  | inputs => "inputs"
  | outputs => "outputs"

/-- The numbers of identifiers that an operation with fixed operands takes on a side. -/
def Opcode.operandCounts : Opcode → OperandSide → List Nat
  | allocate, .inputs => [0]
  | allocate, .outputs => [1]
  | toDevice, .inputs | fromDevice, .inputs => [1]
  | toDevice, .outputs | fromDevice, .outputs => [0, 1]
  | deallocate, .inputs => [1]
  | deallocate, .outputs => [0]
  | compute, .inputs => []
  | compute, .outputs => [1]

inductive Malformation where
  | operandCount (opcode : Opcode) (side : OperandSide) (given : Nat)
  | noComputeInputs
  | shortParameters (opcode : Opcode)
  | unaddressable (type : TensorType)
  | forceFlag (value : UInt8)
  deriving DecidableEq

def Malformation.text : Malformation → String
  | operandCount opcode side given =>
    let allowed := Text.listingOfNats (opcode.operandCounts side)
    s!"{opcode.name} takes {allowed} {side.name}, got {given}"
  | noComputeInputs => "compute takes at least one input"
  | shortParameters opcode => s!"{opcode.name} parameters too short"
  | unaddressable type => s!"{type.text} is too large to address"
  | forceFlag value => s!"force flag {value}"

/-- The causes for which bytes are no program. Where the cause lies in a record it carries its
index; a shortfall and an unknown element code may also lie in front of the records. -/
inductive DecodeError where
  | truncated (record : Option Nat) (offset needed : Nat)
  | badMagic (found : Bytes)
  | unsupportedVersion (version : UInt16)
  | unsupportedOperation (record : Nat) (tag : UInt8)
  | unsupportedKernel (record : Nat) (code : UInt8)
  | unsupportedElement (record : Option Nat) (code : UInt8)
  | unsupportedPlacement (record : Nat) (code : UInt8)
  | malformed (record : Nat) (reason : Malformation)
  | trailingBytes (count : Nat)
  deriving DecidableEq

namespace DecodeError

def record? : DecodeError → Option Nat
  | truncated record .. => record
  | unsupportedElement record _ => record
  | unsupportedOperation record _ | unsupportedKernel record _ | unsupportedPlacement record _
  | malformed record _ => some record
  | badMagic _ | unsupportedVersion _ | trailingBytes _ => none

def tagText (tag : UInt8) : String :=
  "0x" ++ String.ofList [Nat.digitChar (tag.toNat / 16), Nat.digitChar (tag.toNat % 16)]

def message : DecodeError → String
  | truncated _ offset needed =>
    s!"Program truncated at byte {offset}: needed {needed} more bytes"
  | badMagic found =>
    let shown := Text.listingOfNats (found.map UInt8.toNat)
    s!"Invalid magic: expected TXPG, got {shown}"
  | unsupportedVersion version => s!"Unsupported program format version {version}"
  | unsupportedOperation record tag =>
    let shown := tagText tag
    s!"Record {record}: unsupported operation tag {shown}"
  | unsupportedKernel record code => s!"Record {record}: unsupported kernel code {code}"
  | unsupportedElement _ code => s!"Unsupported data type code {code}"
  | unsupportedPlacement record code => s!"Record {record}: unsupported placement code {code}"
  | malformed record reason => s!"Record {record}: {reason.text}"
  | trailingBytes count => s!"{count} trailing bytes after the last record"

/-- A shortfall in a record, or in front of the records. -/
def ofShortfall (record : Option Nat) (s : Shortfall) : DecodeError :=
  .truncated record s.offset s.needed

end DecodeError

/-- A reader in a record, or in front of the records, whose shortfalls truncate the program. -/
def Reader.within {α : Type} (record : Option Nat) (r : Reader Shortfall α) :
    Reader DecodeError α :=
  r.withError (.ofShortfall record)

/-!
### Tensor types
-/

inductive TypeFault where
  | shortfall (shortfall : Shortfall)
  | unknownElement (code : UInt8)
  deriving DecidableEq

/-- Reads a tensor type. The element code is judged before the rank is read. -/
def TensorType.read : Reader TypeFault TensorType := do
  let code ← Reader.u8.withError .shortfall
  let element ← Reader.ofOption (ElementType.ofCode? code) (.unknownElement code)
  let rank ← Reader.u8.withError .shortfall
  let dims ← (Reader.times rank.toNat Reader.u32).withError .shortfall
  pure ⟨element, dims⟩

/-!
### Records
-/

/-- Reads the frame of the record with an index. The tag is judged when the six bytes of its head
have been read. -/
def Record.read (index : Nat) : Reader DecodeError Record := do
  let tag ← Reader.within (some index) Reader.u8
  let inputCount ← Reader.within (some index) Reader.u8
  let outputCount ← Reader.within (some index) Reader.u8
  let _reserved ← Reader.within (some index) Reader.u8
  let paramCount ← Reader.within (some index) Reader.u16
  let opcode ← Reader.ofOption (Opcode.ofTag? tag) (.unsupportedOperation index tag)
  let inputs ← Reader.within (some index) (Reader.times inputCount.toNat Reader.u32)
  let outputs ← Reader.within (some index) (Reader.times outputCount.toNat Reader.u32)
  let params ← Reader.within (some index) (Reader.take paramCount.toNat)
  pure ⟨opcode, inputs, outputs, params⟩

namespace Record

/-- Reads a value from the parameters of the record with an index. Bytes that are left over are
those of a newer layout. -/
def readParams {α : Type} (r : Record) (reader : Reader DecodeError α) : Except DecodeError α :=
  match reader (Cursor.start r.params) with
  | .ok (a, _) => .ok a
  | .error e => .error e

/-- The next parameter byte of the record with an index. -/
def paramByte (index : Nat) (opcode : Opcode) : Reader DecodeError UInt8 :=
  Reader.u8.withError fun _ => .malformed index (.shortParameters opcode)

/-- The parameters of an allocation: a residence, and a type whose size can be addressed. -/
def allocationParams (index : Nat) : Reader DecodeError (Residence × TensorType) := do
  let code ← paramByte index .allocate
  let residence ← Reader.ofOption (Residence.ofCode? code) (.unsupportedPlacement index code)
  let type ← TensorType.read.withError fun
    | .shortfall _ => .malformed index (.shortParameters .allocate)
    | .unknownElement code => .unsupportedElement (some index) code
  Reader.ensure (type.byteSize? ≠ none) (.malformed index (.unaddressable type))
  pure (residence, type)

/-- The flag of a byte that is zero or one. -/
def flag? (value : UInt8) : Option Bool :=
  match value.toNat with
  | 0 => some false
  | 1 => some true
  | _ => none

theorem byte_of_flag? {value : UInt8} {force : Bool} (h : flag? value = some force) :
    (if force then 1 else 0) = value := by
  unfold flag? at h
  split at h <;> cases h <;> exact UInt8.toNat_inj.mp (Eq.symm ‹_›)

def forceParam (index : Nat) : Reader DecodeError Bool := do
  let value ← paramByte index .deallocate
  Reader.ofOption (flag? value) (.malformed index (.forceFlag value))

def kernelParam (index : Nat) : Reader DecodeError Kernel := do
  let code ← paramByte index .compute
  Reader.ofOption (Kernel.ofCode? code) (.unsupportedKernel index code)

/-- The target of a transfer with the given outputs. An output equal to the input keeps the
transfer in place. -/
def transferTarget? (input : TensorId) : List TensorId → Option Target
  | [] => some .inPlace
  | [output] => some (if output = input then .inPlace else .renamed output)
  | _ => none

/-- The refusal of a record for the number of its operands on a side. -/
def wrongCount {α : Type} (index : Nat) (r : Record) (side : OperandSide) :
    Except DecodeError α :=
  .error (.malformed index (.operandCount r.opcode side
    (match side with
      | .inputs => r.inputs.length
      | .outputs => r.outputs.length)))

def transfer (index : Nat) (r : Record) (destination : Residence) :
    Except DecodeError Instruction :=
  match r.inputs with
  | [input] =>
    match transferTarget? input r.outputs with
    | some target => .ok (.transfer destination input target)
    | none => r.wrongCount index .outputs
  | _ => r.wrongCount index .inputs

/-- The instruction of the record with an index. The operands are counted before the parameters
are read. -/
def instruction (index : Nat) (r : Record) : Except DecodeError Instruction :=
  match r.opcode with
  | .allocate =>
    match r.inputs, r.outputs with
    | [], [output] => do
      let (residence, type) ← r.readParams (allocationParams index)
      .ok (.allocate output type residence)
    | [], _ => r.wrongCount index .outputs
    | _, _ => r.wrongCount index .inputs
  | .toDevice => r.transfer index .device
  | .fromDevice => r.transfer index .host
  | .deallocate =>
    match r.inputs, r.outputs with
    | [input], [] => do
      let force ← r.readParams (forceParam index)
      .ok (.deallocate input force)
    | [_], _ => r.wrongCount index .outputs
    | _, _ => r.wrongCount index .inputs
  | .compute =>
    match r.inputs, r.outputs with
    | [], [_] => .error (.malformed index .noComputeInputs)
    | inputs, [output] => do
      let kernel ← r.readParams (kernelParam index)
      .ok (.compute kernel inputs output)
    | _, _ => r.wrongCount index .outputs

end Record

def Instruction.read (index : Nat) : Reader DecodeError Instruction := do
  let record ← Record.read index
  Reader.ofExcept (record.instruction index)

/-!
### Programs
-/

namespace Program

structure Counts where
  records : Nat
  inputs : Nat
  outputs : Nat
  deriving DecidableEq

def readHeader : Reader DecodeError Counts := do
  let found ← Reader.within none (Reader.take 4)
  Reader.ensure (found = magic) (.badMagic found)
  let foundVersion ← Reader.within none Reader.u16
  Reader.ensure (foundVersion = version) (.unsupportedVersion foundVersion)
  let _flags ← Reader.within none Reader.u16
  let records ← Reader.within none Reader.u32
  let inputs ← Reader.within none Reader.u16
  let outputs ← Reader.within none Reader.u16
  pure ⟨records.toNat, inputs.toNat, outputs.toNat⟩

def Input.read : Reader DecodeError Input := do
  let id ← Reader.within none Reader.u32
  let type ← TensorType.read.withError fun
    | .shortfall s => .ofShortfall none s
    | .unknownElement code => .unsupportedElement none code
  pure ⟨id, type⟩

/-- Reads `n` more instructions behind the instructions `seen`, last one first; the next one has
the given index. -/
def readInstructions (index : Nat) : Nat → List Instruction → Reader DecodeError (List Instruction)
  | 0, seen, c => .ok (seen.reverse, c)
  | n + 1, seen, c =>
    match Instruction.read index c with
    | .ok (i, c') => readInstructions (index + 1) n (i :: seen) c'
    | .error e => .error e

def read : Reader DecodeError Program := do
  let counts ← readHeader
  let inputs ← Reader.times counts.inputs Input.read
  let outputs ← Reader.within none (Reader.times counts.outputs Reader.u32)
  let instructions ← readInstructions 0 counts.records []
  pure ⟨inputs, outputs, instructions⟩

/-- The program of a byte string that holds nothing else. -/
def decode (bytes : Bytes) : Except DecodeError Program :=
  match read (Cursor.start bytes) with
  | .error e => .error e
  | .ok (p, c) => if c.remaining = 0 then .ok p else .error (.trailingBytes c.remaining)

end Program

end TensorMachine
