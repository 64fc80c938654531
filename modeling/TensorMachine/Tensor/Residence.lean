/-!
# Identifiers, residences and states

Programs name tensors by identifiers. A residence says where the storage of a tensor lives. The
state of an identifier is a residence or "freed", and the moves between states are those of the
lifecycle: storage changes sides or goes away, and nothing comes back.
-/

namespace TensorMachine

/-- The name of a tensor in a program. -/
abbrev TensorId := UInt32

/-- The side on which the storage of a tensor lives. -/
inductive Residence where
  | host
  | device
  deriving DecidableEq

namespace Residence

/-- The code of the residence in the binary layout. -/
def code : Residence → UInt8
  | host => 0
  | device => 1

/-- The residence of a code, if there is one. -/
def ofCode? (code : UInt8) : Option Residence :=
  match code.toNat with
  | 0 => some host
  | 1 => some device
  | _ => none

def name : Residence → String
  | host => "Host"
  | device => "Device"

def opposite : Residence → Residence
  | host => device
  | device => host

@[simp] theorem ofCode?_code (r : Residence) : ofCode? r.code = some r := by
  cases r <;> rfl

theorem code_of_ofCode? {code : UInt8} {r : Residence} (h : ofCode? code = some r) :
    r.code = code := by
  unfold ofCode? at h
  split at h <;> cases h <;> exact UInt8.toNat_inj.mp (Eq.symm ‹_›)

@[simp] theorem opposite_opposite (r : Residence) : r.opposite.opposite = r := by
  cases r <;> rfl

end Residence

/-- The state of a tensor identifier. -/
inductive State where
  | resident (side : Residence)
  | freed
  deriving DecidableEq

namespace State

def name : State → String
  | resident .host => "HostResident"
  | resident .device => "DeviceResident"
  | freed => "Freed"

/-- A state is allocated while there is storage behind it. -/
def isAllocated : State → Bool
  | resident _ => true
  | freed => false

/-- The moves of the lifecycle: to the other side, or away for ever. -/
def canBecome : State → State → Bool
  | resident r, resident s => r != s
  | resident _, freed => true
  | freed, _ => false

@[simp] theorem canBecome_self (s : State) : s.canBecome s = false := by
  cases s <;> simp [canBecome]

end State

end TensorMachine
