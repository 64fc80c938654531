import TensorMachine.Device.Vulkan
import TensorMachine.Kernel.Basic
import TensorMachine.Tensor.Residence
import TensorMachine.Tensor.Type

/-!
# Device errors

The causes for which a device refuses a call, and the text of each.
-/

namespace TensorMachine

/-- The kinds of calls that a device answers. -/
inductive DeviceCall where
  | allocate
  | release
  | hostToDevice
  | deviceToHost
  | compute
  deriving DecidableEq

def DeviceCall.title : DeviceCall → String
  | allocate => "Allocate"
  | release => "Release"
  | hostToDevice => "HostToDevice"
  | deviceToHost => "DeviceToHost"
  | compute => "Compute"

/-- What is known of a tensor of a host device apart from its contents. -/
structure TensorLabel where
  serial : Nat
  type : TensorType
  location : Residence
  deriving DecidableEq

def TensorLabel.text (t : TensorLabel) : String :=
  s!"HostTensor(serial={t.serial}, desc={t.type.text}, location={t.location.name})"

/-- Why a handle is of no use in a call. -/
inductive HandleFault where
  | notOwned
  | notResident (expected : Residence)
  deriving DecidableEq

/-- Why the arguments of an allocation make no sense. -/
inductive ArgumentFault where
  | unaddressable (type : TensorType)
  | dataLength (given : Nat) (type : TensorType) (size : Nat)
  deriving DecidableEq

/-- Why operands do not fit a kernel. -/
inductive OperandFault where
  | arity (kernel : Kernel) (given : Nat)
  | mismatch (kernel : Kernel) (first other : TensorType)
  deriving DecidableEq

/-- The kinds of device errors that come with words. -/
inductive DeviceErrorKind where
  | invalidHandle
  | invalidArgument
  | unsupported
  | kernel
  | backend
  | vulkan
  deriving DecidableEq

def DeviceErrorKind.title : DeviceErrorKind → String
  | invalidHandle => "Invalid handle"
  | invalidArgument => "Invalid argument"
  | unsupported => "Unsupported"
  | kernel => "Kernel error"
  | backend => "Backend error"
  | vulkan => "Vulkan error"

/-- The causes for which a device refuses a call. The words of all but the last are known, and other
devices may have words of their own. -/
inductive DeviceError where
  | outOfMemory (requested available : Nat)
  | pendingReferences (serial : Nat)
  | invalidHandle (tensor : TensorLabel) (fault : HandleFault)
  | invalidArgument (fault : ArgumentFault)
  | unsupported (kernel : Kernel) (element : ElementType)
  | operands (fault : OperandFault)
  | backend (call : DeviceCall)
  | vulkan (code : VulkanCode)
  | other (kind : DeviceErrorKind) (text : String)
  deriving DecidableEq

namespace HandleFault

/-- The predicate said of the tensor at fault. -/
def text : HandleFault → String
  | notOwned => "is not owned by this device"
  | notResident expected => s!"is not {expected.name} resident"

end HandleFault

namespace ArgumentFault

def text : ArgumentFault → String
  | unaddressable type => s!"{type.text} is too large to address"
  | dataLength given type size => s!"initial data is {given} bytes but {type.text} needs {size}"

end ArgumentFault

namespace OperandFault

def text : OperandFault → String
  | arity kernel given => s!"{kernel.title} takes {kernel.arity} inputs, got {given}"
  | mismatch kernel first other =>
    s!"{kernel.title} operands differ: {first.text} vs {other.text}"

end OperandFault

namespace DeviceError

def kind? : DeviceError → Option DeviceErrorKind
  | outOfMemory .. | pendingReferences _ => none
  | invalidHandle .. => some .invalidHandle
  | invalidArgument _ => some .invalidArgument
  | unsupported .. => some .unsupported
  | operands _ => some .kernel
  | backend _ => some .backend
  | vulkan _ => some .vulkan
  | other kind _ => some kind

def message : DeviceError → String
  | outOfMemory requested available =>
    s!"Out of memory: requested {requested} bytes, {available} available"
  | pendingReferences serial => s!"Handle {serial} still has pending provider references"
  | invalidHandle tensor fault =>
    s!"{DeviceErrorKind.invalidHandle.title}: {tensor.text} {fault.text}"
  | invalidArgument fault => s!"{DeviceErrorKind.invalidArgument.title}: {fault.text}"
  | unsupported kernel element =>
    s!"{DeviceErrorKind.unsupported.title}: {kernel.title} on {element.name}"
  | operands fault => s!"{DeviceErrorKind.kernel.title}: {fault.text}"
  | backend call => s!"{DeviceErrorKind.backend.title}: injected {call.title} failure"
  | vulkan code => s!"{DeviceErrorKind.vulkan.title}: {code.text}"
  | other kind text => s!"{kind.title}: {text}"

end DeviceError

end TensorMachine
