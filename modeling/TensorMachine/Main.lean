import TensorMachine.CommandLine.Session

/-!
# The program

Reads the command line, the environment and the named file, and prints what the session leaves.
-/

namespace TensorMachine.CommandLine

/-- The memory that is assumed when the system does not tell how much there is. -/
def assumedMemory : Nat := 1 <<< 30

/-- The available memory in bytes by the system's own account, whose lines give a name and a number
of units of 1024 bytes. -/
def availableMemory? (account : String) : Option Nat :=
  (account.splitOn "\n").findSome? fun line =>
    match (line.splitOn " ").filter (· ≠ "") with
    | "MemAvailable:" :: amount :: _ => amount.toNat?.map (1024 * ·)
    | _ => none

def availableMemory : IO Nat := do
  try
    let account ← IO.FS.readFile "/proc/meminfo"
    return (availableMemory? account).getD assumedMemory
  catch _ => return assumedMemory

/-- The level named in the environment, `info` if none is. -/
def levelFromEnvironment : IO (Option Level) := do
  match ← IO.getEnv "LOG_LEVEL" with
  | none => return some .info
  | some "off" => return none
  | some name => return some ((Level.ofName? name.toLower).getD .info)

/-- The number under which the operating system reports an error, which may come negated in 32
bits. -/
def errorNumber (code : UInt32) : Nat :=
  if code.toNat < 1 <<< 31 then code.toNat else UInt32.size - code.toNat

def readFailure : IO.Error → ReadFailure
  | .noFileOrDirectory _ code details | .permissionDenied _ code details
  | .inappropriateType _ code details | .invalidArgument _ code details
  | .noSuchThing _ code details | .resourceExhausted _ code details
  | .hardwareFault code details | .otherError code details =>
    let number := errorNumber code
    (ReadFailure.ofNumber? number).getD (.other s!"{details} (os error {number})")
  | e => .other (toString e)

def readProgram (path : String) : IO (Except ReadFailure Bytes) := do
  try
    return .ok (← IO.FS.readBinFile path).toList
  catch e => return .error (readFailure e)

def randomContents : IO Bytes := do
  let choices ← (List.replicate Demo.elements ()).mapM fun _ => IO.rand 0 ((1 <<< 23) - 1)
  return Demo.contents choices

/-- Reads the file that options name. The answer holds for its path alone. -/
def readNamed (options : Options) : IO (String → Except ReadFailure Bytes) := do
  match options.path with
  | some path =>
    let contents ← readProgram path
    return fun _ => contents
  | none => return fun _ => .error .notFound

def Output.print (o : Output) : IO UInt32 := do
  for line in o.stdout do IO.println line
  for line in o.stderr do IO.eprintln line
  return o.exitCode.toUInt32

/-- Answers a command line. The budget for device memory is three fifths of the available
memory. -/
def answer (args : List String) : IO UInt32 := do
  let available ← availableMemory
  let surroundings : Surroundings :=
    { deviceMemory := (available * 3 / 5).toUInt64
      maxAllocation := available
      level := ← levelFromEnvironment
      gpuFailure := "no Vulkan library" }
  let read ← readNamed (parse args).options
  (call surroundings read (← randomContents) (← randomContents) args).print

end TensorMachine.CommandLine

def main (args : List String) : IO UInt32 :=
  TensorMachine.CommandLine.answer args
