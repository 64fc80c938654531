import TensorMachine.Device.Error
import TensorMachine.Program.Reading
import TensorMachine.Tensor.Pool

/-!
# Execution errors

The causes for which a run stops: the bytes are no program, the program breaks the protocol of
identifiers or their lifecycle, or the device refuses a call.
-/

namespace TensorMachine

/-- The breaches of the protocol between a program, its caller and its instructions. -/
inductive ProtocolError where
  | unknownIdentifier (id : TensorId)
  | duplicateIdentifier (id : TensorId)
  | consumedIdentifier (id successor : TensorId)
  | missingInput (id : TensorId)
  | unexpectedInput (id : TensorId)
  | duplicateInput (id : TensorId)
  | missingOutput (id : TensorId)
  | arityMismatch (kernel : Kernel) (given : Nat)
  deriving DecidableEq

/-- The causes for which a run stops. -/
inductive ExecutionError where
  | decode (cause : DecodeError)
  | protocol (cause : ProtocolError)
  | illegalTransition (id : TensorId) (source target : State)
  | useAfterFree (id : TensorId)
  | residencyMismatch (id : TensorId) (expected actual : State)
  | device (operation : Opcode) (cause : DeviceError)
  deriving DecidableEq

/-- The classes of execution errors. -/
inductive ErrorKind where
  | protocol
  | lifecycle
  | device
  deriving DecidableEq

def ProtocolError.message : ProtocolError → String
  | unknownIdentifier id => s!"Unknown tensor identifier {id}"
  | duplicateIdentifier id => s!"Duplicate tensor identifier {id}"
  | consumedIdentifier id successor =>
    s!"Tensor identifier {id} was consumed by a transfer into {successor}"
  | missingInput id => s!"Program input {id} was not supplied"
  | unexpectedInput id => s!"Tensor {id} was supplied but is not a program input"
  | duplicateInput id => s!"Program input {id} was supplied more than once"
  | missingOutput id => s!"Program output {id} is not live at program end"
  | arityMismatch kernel given =>
    s!"Kernel {kernel.name} takes {kernel.arity} inputs, got {given}"

namespace ExecutionError

def message : ExecutionError → String
  | decode cause => s!"Decode error: {cause.message}"
  | protocol cause => s!"Protocol error: {cause.message}"
  | illegalTransition id source target =>
    s!"Tensor {id}: illegal state transition {source.name} -> {target.name}"
  | useAfterFree id => s!"Tensor {id} used after being freed"
  | residencyMismatch id expected actual =>
    s!"Tensor {id}: expected {expected.name}, found {actual.name}"
  | device operation cause => s!"Device error during {operation.name}: {cause.message}"

def kind : ExecutionError → ErrorKind
  | decode _ | protocol _ => .protocol
  | illegalTransition .. | useAfterFree _ | residencyMismatch .. => .lifecycle
  | device .. => .device

/-- The refusal of a pool as the cause for which a run stops. -/
def ofPool : PoolError → ExecutionError
  | .unknownIdentifier id => .protocol (.unknownIdentifier id)
  | .duplicateIdentifier id => .protocol (.duplicateIdentifier id)
  | .consumedIdentifier id successor => .protocol (.consumedIdentifier id successor)
  | .illegalTransition id source target => .illegalTransition id source target
  | .useAfterFree id => .useAfterFree id

end ExecutionError

end TensorMachine
