import TensorMachine.CommandLine.Demo
import TensorMachine.CommandLine.Options
import TensorMachine.Journal.Run
import TensorMachine.Text.Binary32

/-!
# Command-line sessions

One call of the command line on a host device: the journal, the report and the outputs on standard
output, and the exit code. All that comes from outside is given beforehand.
-/

namespace TensorMachine.CommandLine

structure Surroundings where
  deviceMemory : UInt64
  maxAllocation : Nat
  /-- The level at which the journal is kept. -/
  level : Option Level
  /-- Why no GPU can be used. -/
  gpuFailure : String

/-- What a session runs: the contents of a file, or why there are none, or the demonstration with
the contents of its two inputs. -/
inductive Source where
  | file (path : String) (contents : Except ReadFailure Bytes)
  | demo (left right : Bytes)

structure Output where
  stdout : List String
  stderr : List String
  exitCode : Nat

structure Outcome where
  journal : List Event
  result : Option (Report HostTensor × HostDevice)

def runBytes (cfg : RunConfig) (bytes : Bytes) (inputs : List (TensorId × HostTensor))
    (d : HostDevice) : Outcome :=
  let (report, d) := Program.runBytes HostDevice.provider cfg bytes inputs d
  ⟨Program.runBytesJournal HostDevice.provider.name cfg bytes (inputs.map Prod.fst) report,
    some (report, d)⟩

def runDemo (cfg : RunConfig) (left right : Bytes) (d : HostDevice) : Outcome :=
  match Demo.makeInputs left right d with
  | (.error e, _) => ⟨[.demoFailed e.message], none⟩
  | (.ok inputs, d) =>
    match Demo.program.encode with
    | .error e => ⟨[.demoFailed e.message], none⟩
    | .ok bytes =>
      let outcome := runBytes cfg bytes inputs d
      { outcome with journal := .demoEncoded bytes.length :: outcome.journal }

def Source.run (cfg : RunConfig) (d : HostDevice) : Source → Outcome
  | file path (.error failure) => ⟨[.fileUnreadable path failure], none⟩
  | file _ (.ok bytes) => runBytes cfg bytes [] d
  | demo left right => runDemo cfg left right d

/-- The line of an output: its contents as binary32 numbers, or why they cannot be read. -/
def outputLine (d : HostDevice) (id : TensorId) (t : HostTensor) : String :=
  match d.read t with
  | .ok bytes =>
    let values := Text.listing ((Elements.words bytes).map Text.binary32)
    s!"output {id} {t.text}: {values}"
  | .error e => s!"output {id} {t.text}: {e.message}"

/-- The event of handles that are outstanding beyond those handed back. -/
def leftovers (report : Report HostTensor) (d : HostDevice) : List Event :=
  if d.outstanding.length = report.outputs.length then []
  else [.handlesLeft (d.outstanding.length - report.outputs.length)]

def session (s : Surroundings) (options : Options) (source : Source) : Output :=
  let shown := Event.lines s.level
  let d := HostDevice.new s.deviceMemory s.maxAllocation
  let gpu := match options.gpu with
    | some index => [Event.gpuUnavailable index s.gpuFailure]
    | none => []
  let ready :=
    [.deviceReady s.deviceMemory.toNat s.maxAllocation, .hostReady s.deviceMemory.toNat]
  let outcome := source.run { verifyFirst := options.verifyFirst } d
  let opening := shown (gpu ++ ready ++ outcome.journal)
  match outcome.result with
  | none => ⟨opening, [], 1⟩
  | some (report, d) =>
    ⟨opening ++ report.lines ++ report.outputs.map (fun (id, t) => outputLine d id t) ++
        shown (leftovers report d),
      [], if report.isSuccess then 0 else 1⟩

def Options.source (options : Options) (read : String → Except ReadFailure Bytes)
    (left right : Bytes) : Source :=
  match options.path with
  | some path => .file path (read path)
  | none => .demo left right

def helpOutput : Output := ⟨[usage], [], 0⟩

def mistakeOutput : Output := ⟨[], [usage], 1⟩

/-- One call of the command line, where files read as given and the inputs of the demonstration are
at hand. -/
def call (s : Surroundings) (read : String → Except ReadFailure Bytes) (left right : Bytes)
    (args : List String) : Output :=
  match parse args with
  | .help => helpOutput
  | .mistake => mistakeOutput
  | .run options => session s options (options.source read left right)

end TensorMachine.CommandLine
