import TensorMachine.Device.Error

/-!
# Device providers

A provider is all that a run needs of a device. It is a set of functions on a state of the device,
so that every call tells what it answers and in which state it leaves the device. A transfer also
tells what has become of the handle, whether it succeeds or fails.
-/

namespace TensorMachine

/-- The calls of a device with states in `σ` and handles in `η`. -/
structure Provider (σ η : Type) where
  /-- The name of the device in texts. -/
  name : String
  /-- Makes a tensor whose contents are zero. -/
  allocate : TensorType → Residence → σ → Except DeviceError η × σ
  /-- Takes a handle back. With force, references to its storage do not matter. -/
  release : η → Bool → σ → Except DeviceError Unit × σ
  /-- Moves the storage of a handle to a side. -/
  transfer : Residence → η → σ → Except DeviceError Unit × η × σ
  /-- Runs a kernel on tensors that live on the device and makes another one there. -/
  compute : Kernel → List η → σ → Except DeviceError η × σ

def TensorType.addressableSize (t : TensorType) : Except DeviceError Nat :=
  match t.byteSize? with
  | some size => .ok size
  | none => .error (.invalidArgument (.unaddressable t))

end TensorMachine
