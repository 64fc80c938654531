import TensorMachine.Files.Failure
import TensorMachine.Machine.Report
import TensorMachine.Text.Escaped
import TensorMachine.Text.Mebibytes

/-!
# Journal events

What is worth telling about devices, programs and runs. Every event has a level, a topic and a
text; a journal is a list of events in the order in which they happened.
-/

namespace TensorMachine

/-- The levels of a journal, from the gravest to the most detailed. -/
inductive Level where
  | error
  | warn
  | info
  | debug
  | trace
  deriving DecidableEq

namespace Level

/-- The name of the level in front of a line. -/
def label : Level → String
  | error => "ERROR"
  | warn => "WARN"
  | info => "INFO"
  | debug => "DEBUG"
  | trace => "TRACE"

/-- The place of the level, from the gravest to the most detailed. -/
def rank : Level → Nat
  | error => 0
  | warn => 1
  | info => 2
  | debug => 3
  | trace => 4

def ofName? : String → Option Level
  | "error" => some error
  | "warn" => some warn
  | "info" => some info
  | "debug" => some debug
  | "trace" => some trace
  | _ => none

/-- Whether a journal kept at a level, if it is kept at all, shows events of another. -/
def shows (threshold : Option Level) (level : Level) : Bool :=
  match threshold with
  | none => false
  | some most => level.rank ≤ most.rank

end Level

/-- The numbers of records, inputs and outputs of a program. -/
structure ProgramSize where
  records : Nat
  inputs : Nat
  outputs : Nat
  deriving DecidableEq

def Program.size (p : Program) : ProgramSize :=
  ⟨p.instructions.length, p.inputs.length, p.outputs.length⟩

def ProgramSize.text (s : ProgramSize) : String :=
  s!"{s.records} records, {s.inputs} inputs, {s.outputs} outputs"

inductive Event where
  | deviceReady (memory largest : Nat)
  | releaseReclaimed (serial : Nat)
  | programDecoded (size : ProgramSize)
  | tensorIntroduced (id : TensorId) (state : State)
  | tensorMoved (id : TensorId) (source target : State)
  | tensorRetired (id : TensorId) (fate : Fate)
  | runStarted (device : String) (size : ProgramSize)
  | recordStarted (index : Nat) (instruction : Instruction)
  | recordFailed (index : Nat) (operation : Opcode) (error : ExecutionError)
  | programUnreadable (error : DecodeError)
  | programRejected (error : ExecutionError)
  | bindingFailed (error : ExecutionError)
  | releaseFailed (id : TensorId) (error : DeviceError)
  | runCompleted (records outputs released : Nat)
  | runFailed (fault : Fault) (released : Nat)
  | gpuUnavailable (index : Nat) (reason : String)
  | hostReady (available : Nat)
  | demoEncoded (size : Nat)
  | demoFailed (reason : String)
  | fileUnreadable (path : String) (failure : ReadFailure)
  | handlesLeft (count : Nat)
  deriving DecidableEq

namespace Event

def level : Event → Level
  | fileUnreadable .. | demoFailed _ | handlesLeft _ => .error
  | recordFailed .. | programUnreadable _ | programRejected _ | bindingFailed _ | releaseFailed ..
  | gpuUnavailable .. => .warn
  | runStarted .. | runCompleted .. | runFailed .. | hostReady _ | demoEncoded _ => .info
  | deviceReady .. | programDecoded _ | recordStarted .. => .debug
  | releaseReclaimed _ | tensorIntroduced .. | tensorMoved .. | tensorRetired .. => .trace

/-- The topic under which the event is told. -/
def topic : Event → String
  | deviceReady .. | releaseReclaimed _ => "tensorexec::device::host::host_device"
  | programDecoded _ => "tensorexec::program::decoder"
  | tensorIntroduced .. | tensorMoved .. | tensorRetired .. => "tensorexec::tensor::pool"
  | runStarted .. | recordStarted .. | recordFailed .. | programUnreadable _ | programRejected _
  | bindingFailed _ | releaseFailed .. | runCompleted .. | runFailed .. =>
    "tensorexec::execution::executor"
  | gpuUnavailable .. | hostReady _ | demoEncoded _ | demoFailed _ | fileUnreadable ..
  | handlesLeft _ => "tensorexec"

def fateText : Fate → String
  | .freed => "Freed"
  | .consumed successor => s!"Consumed \x7b successor: {successor} \x7d"

def recordText : Option Nat → String
  | some index => s!"Some({index})"
  | none => "None"

def text : Event → String
  | deviceReady memory largest =>
    s!"host device budget {Text.mebibytes memory}, largest allocation {Text.mebibytes largest}"
  | releaseReclaimed serial => s!"reclaiming deferred release serial={serial}"
  | programDecoded size => s!"Decoded program: {size.text}"
  | tensorIntroduced id state => s!"pool insert id={id} state={state.name}"
  | tensorMoved id source target =>
    s!"pool transition id={id} from={source.name} to={target.name}"
  | tensorRetired id fate => s!"pool retire id={id} how={fateText fate}"
  | runStarted device size => s!"Executing program on {device}: {size.text}"
  | recordStarted index instruction => s!"[{index}] {instruction.text}"
  | recordFailed index operation error =>
    s!"Record {index} ({operation.name}) failed: {error.message}"
  | programUnreadable error => s!"Program rejected by decoder: {error.message}"
  | programRejected error => s!"Program failed verification: {error.message}"
  | bindingFailed error => s!"Input binding failed: {error.message}"
  | releaseFailed id error => s!"Failed to release tensor {id} on teardown: {error.message}"
  | runCompleted records outputs released =>
    s!"Program completed: {records} records, {outputs} outputs, {released} released"
  | runFailed fault released =>
    let place := recordText fault.record
    s!"Program failed at record {place}: {fault.error.message} ({released} released)"
  | gpuUnavailable index reason =>
    s!"Vulkan GPU {index} unavailable, using the host device: {reason}"
  | hostReady available => s!"Host device ready, {Text.mebibytes available} device memory available"
  | demoEncoded size => s!"Demo program encoded to {size} bytes"
  | demoFailed reason => s!"Demo setup failed: {reason}"
  | fileUnreadable path failure => s!"Failed to read {path}: {failure.text}"
  | handlesLeft count => s!"{count} handles outstanding after teardown"

/-- The line of the event in a journal, which cannot steer the terminal that shows it. -/
def line (e : Event) : String :=
  s!"{e.level.label} {e.topic}: {Text.escaped e.text}"

def lines (threshold : Option Level) (journal : List Event) : List String :=
  (journal.filter fun e => Level.shows threshold e.level).map line

end Event

end TensorMachine
