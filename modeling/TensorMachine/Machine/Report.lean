import TensorMachine.Machine.Verification

/-!
# Reports

What a run tells its caller: how it ended, how far it came, what was live when it stopped, what it
hands back, and what became of the rest.
-/

namespace TensorMachine

/-- How a run ended. -/
inductive Status where
  | completed
  | failed (fault : Fault)
  deriving DecidableEq

/-- A release at the end of a run that the device refused. -/
structure Diagnostic where
  id : TensorId
  error : DeviceError
  deriving DecidableEq

def Diagnostic.text (d : Diagnostic) : String :=
  s!"tensor {d.id}: release failed: {d.error.message}"

/-- What a run tells its caller. The surviving tensors are those that were live when the last
instruction had been executed or had failed, in the order of their introduction. -/
structure Report (η : Type) where
  status : Status
  executed : Nat
  surviving : List (TensorId × State)
  outputs : List (TensorId × η)
  released : Nat
  diagnostics : List Diagnostic

namespace Report

variable {η : Type}

def fault? (r : Report η) : Option Fault :=
  match r.status with
  | .completed => none
  | .failed fault => some fault

def isSuccess (r : Report η) : Bool := r.fault?.isNone

def survivingIds (r : Report η) : List TensorId := r.surviving.map Prod.fst

def survivingState? (r : Report η) (id : TensorId) : Option State := r.surviving.lookup id

def output? (r : Report η) (id : TensorId) : Option η := r.outputs.lookup id

def statusLine : Status → String
  | .completed => "Completed"
  | .failed ⟨some record, error⟩ => s!"Failed at record {record}: {error.message}"
  | .failed ⟨none, error⟩ => s!"Failed: {error.message}"

def lines (r : Report η) : List String :=
  [statusLine r.status,
    s!"Records executed: {r.executed}",
    s!"Surviving tensors: {r.surviving.length}"] ++
  r.surviving.map (fun (id, state) => s!"  {id}: {state.name}") ++
  [s!"Outputs returned: {r.outputs.length}",
    s!"Released on teardown: {r.released}"] ++
  r.diagnostics.map fun d => s!"  {d.text}"

/-- The text of the report, without a line end behind the last line. -/
def text (r : Report η) : String := "\n".intercalate r.lines

end Report

end TensorMachine
