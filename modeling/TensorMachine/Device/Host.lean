import TensorMachine.Device.Budget
import TensorMachine.Device.Provider
import TensorMachine.Kernel.Result
import TensorMachine.Kernel.Run

/-!
# The host device

A device that keeps the contents of all tensors in host memory. Living "on the device" is a matter
of bookkeeping against a memory budget; contents keep their bytes in every transfer. Handles carry
a serial, and the device knows which of its serials are outstanding.

A tensor may be pinned by its serial. Releasing a pinned tensor without force fails and is deferred
until the last pin is taken away. Every kind of call can be armed to fail once.
-/

namespace TensorMachine

structure HostTensor extends TensorLabel where
  bytes : Bytes
  deriving DecidableEq

/-- The state of a host device. Pins form a multiset: a serial occurs once for each of its pins. -/
structure HostDevice where
  memory : Budget
  maxAllocation : Nat
  nextSerial : Nat
  outstanding : List Nat
  pins : List Nat
  deferred : List HostTensor
  released : List Nat
  armed : List DeviceCall
  deriving DecidableEq

namespace HostDevice

def new (deviceMemory : UInt64) (maxAllocation : Nat) : HostDevice :=
  ⟨.ofLimit deviceMemory, maxAllocation, 1, [], [], [], [], []⟩

/-!
### Faults, pins and checks
-/

def failNext (d : HostDevice) (call : DeviceCall) : HostDevice :=
  { d with armed := d.armed.insert call }

/-- The device after an armed call has fired, if it was armed. -/
def fire? (d : HostDevice) (call : DeviceCall) : Option HostDevice :=
  if call ∈ d.armed then some { d with armed := d.armed.erase call } else none

def pinCount (d : HostDevice) (serial : Nat) : Nat := d.pins.count serial

def reclaim (memory : Budget) (t : HostTensor) : Budget :=
  match t.location with
  | .device => memory.giveBack t.bytes.length
  | .host => memory

def pin (d : HostDevice) (serial : Nat) : HostDevice :=
  { d with pins := serial :: d.pins }

/-- Takes a pin of a serial away. With the last one, a deferred release of the serial happens. -/
def unpin (d : HostDevice) (serial : Nat) : HostDevice :=
  let pins := d.pins.erase serial
  if serial ∈ d.pins ∧ serial ∉ pins then
    match d.deferred.find? (·.serial == serial) with
    | some t =>
      { d with
        pins := pins
        deferred := d.deferred.filter (·.serial != serial)
        memory := reclaim d.memory t }
    | none => { d with pins := pins }
  else { d with pins := pins }

def checkLive (d : HostDevice) (t : HostTensor) : Except DeviceError Unit :=
  if t.serial ∈ d.outstanding then .ok ()
  else .error (.invalidHandle t.toTensorLabel .notOwned)

def checkLocation (t : HostTensor) (expected : Residence) : Except DeviceError Unit :=
  if t.location = expected then .ok ()
  else .error (.invalidHandle t.toTensorLabel (.notResident expected))

def checkAllocation (d : HostDevice) (size : Nat) : Except DeviceError Unit :=
  if size ≤ d.maxAllocation then .ok () else .error (.outOfMemory size d.maxAllocation)

/-- Gives a new tensor the next serial and counts it as outstanding. -/
def issue (d : HostDevice) (memory : Budget) (type : TensorType) (location : Residence)
    (bytes : Bytes) : HostTensor × HostDevice :=
  (⟨⟨d.nextSerial, type, location⟩, bytes⟩,
    { d with
      memory := memory
      nextSerial := d.nextSerial + 1
      outstanding := d.nextSerial :: d.outstanding })

/-!
### Calls
-/

def checkContents (type : TensorType) (size : Nat) : Option Bytes → Except DeviceError Unit
  | some data =>
    if data.length = size then .ok ()
    else .error (.invalidArgument (.dataLength data.length type size))
  | none => .ok ()

/-- The memory after a tensor of some size has been made on a side. -/
def charge (memory : Budget) (location : Residence) (size : Nat) : Except DeviceError Budget :=
  match location with
  | .device => memory.reserve size
  | .host => .ok memory

def prepare (d : HostDevice) (type : TensorType) (location : Residence) (data? : Option Bytes) :
    Except DeviceError (Bytes × Budget) := do
  let size ← type.addressableSize
  checkContents type size data?
  d.checkAllocation size
  let memory ← charge d.memory location size
  .ok (data?.getD (List.replicate size 0), memory)

/-- Makes a tensor on a side, with the given contents or zeros. -/
def allocate (d : HostDevice) (type : TensorType) (location : Residence) (data? : Option Bytes) :
    Except DeviceError HostTensor × HostDevice :=
  match d.fire? .allocate with
  | some d' => (.error (.backend .allocate), d')
  | none =>
    match d.prepare type location data? with
    | .error e => (.error e, d)
    | .ok (bytes, memory) =>
      let (t, d') := d.issue memory type location bytes
      (.ok t, d')

def hostTensor (d : HostDevice) (type : TensorType) (data : Bytes) :
    Except DeviceError HostTensor × HostDevice :=
  d.allocate type .host (some data)

/-- Takes a tensor back. The serial is no longer outstanding from here on, whatever follows. -/
def release (d : HostDevice) (t : HostTensor) (force : Bool) :
    Except DeviceError Unit × HostDevice :=
  match d.checkLive t with
  | .error e => (.error e, d)
  | .ok () =>
    let d := { d with outstanding := d.outstanding.erase t.serial }
    match d.fire? .release with
    | some d' => (.error (.backend .release), { d' with deferred := d'.deferred ++ [t] })
    | none =>
      if force = false ∧ t.serial ∈ d.pins then
        (.error (.pendingReferences t.serial), { d with deferred := d.deferred ++ [t] })
      else
        (.ok (),
          { d with
            pins := d.pins.filter (· != t.serial)
            memory := reclaim d.memory t
            released := d.released ++ [t.serial] })

def transferCall : Residence → DeviceCall
  | .device => .hostToDevice
  | .host => .deviceToHost

/-- The memory after a tensor has moved to a side. -/
def moveMemory (memory : Budget) (destination : Residence) (size : Nat) :
    Except DeviceError Budget :=
  match destination with
  | .device => memory.reserve size
  | .host => .ok (memory.giveBack size)

def prepareTransfer (d : HostDevice) (destination : Residence) (t : HostTensor) :
    Except DeviceError Budget := do
  d.checkLive t
  checkLocation t destination.opposite
  moveMemory d.memory destination t.bytes.length

/-- Moves a tensor to a side. Its contents keep their bytes. -/
def transfer (d : HostDevice) (destination : Residence) (t : HostTensor) :
    Except DeviceError Unit × HostTensor × HostDevice :=
  match d.fire? (transferCall destination) with
  | some d' => (.error (.backend (transferCall destination)), t, d')
  | none =>
    match d.prepareTransfer destination t with
    | .error e => (.error e, t, d)
    | .ok memory => (.ok (), { t with location := destination }, { d with memory := memory })

/-- Refuses the first operand that is not live or does not live on the device. -/
def checkOperands (d : HostDevice) : List HostTensor → Except DeviceError Unit
  | [] => .ok ()
  | t :: rest => do
    d.checkLive t
    checkLocation t .device
    d.checkOperands rest

def prepareCompute (d : HostDevice) (kernel : Kernel) (operands : List HostTensor) :
    Except DeviceError (TensorType × Budget) := do
  d.checkOperands operands
  let type ← kernel.resultType (operands.map (·.type))
  let size ← type.addressableSize
  d.checkAllocation size
  let memory ← d.memory.reserve size
  .ok (type, memory)

/-- Runs a kernel on tensors that live on the device. The checks leave no operand missing or too
short, so that the kernel has an answer. -/
def compute (d : HostDevice) (kernel : Kernel) (operands : List HostTensor) :
    Except DeviceError HostTensor × HostDevice :=
  match d.fire? .compute with
  | some d' => (.error (.backend .compute), d')
  | none =>
    match d.prepareCompute kernel operands with
    | .error e => (.error e, d)
    | .ok (type, memory) =>
      let bytes := (kernel.run? (operands.map (·.bytes))).getD []
      let (t, d') := d.issue memory type .device bytes
      (.ok t, d')

def read (d : HostDevice) (t : HostTensor) : Except DeviceError Bytes := do
  d.checkLive t
  checkLocation t .host
  .ok t.bytes

def provider : Provider HostDevice HostTensor where
  name := "host"
  allocate type location d := d.allocate type location none
  release t force d := d.release t force
  transfer destination t d := d.transfer destination t
  compute kernel operands d := d.compute kernel operands

end HostDevice

end TensorMachine
