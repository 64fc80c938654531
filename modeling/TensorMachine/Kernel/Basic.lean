/-!
# Kernels

The kernels that a program can ask a device to run.
-/

namespace TensorMachine

/-- The computations on tensors. -/
inductive Kernel where
  | add
  | multiply
  | relu
  | copy
  deriving DecidableEq

namespace Kernel

/-- The code of the kernel in the binary layout. -/
def code : Kernel → UInt8
  | add => 0
  | multiply => 1
  | relu => 2
  | copy => 3

/-- The kernel of a code, if there is one. -/
def ofCode? (code : UInt8) : Option Kernel :=
  match code.toNat with
  | 0 => some add
  | 1 => some multiply
  | 2 => some relu
  | 3 => some copy
  | _ => none

/-- The name of the kernel in protocol errors. -/
def name : Kernel → String
  | add => "add"
  | multiply => "multiply"
  | relu => "relu"
  | copy => "copy"

/-- The name of the kernel in the texts of programs and devices. -/
def title : Kernel → String
  | add => "Add"
  | multiply => "Multiply"
  | relu => "Relu"
  | copy => "Copy"

def arity : Kernel → Nat
  | add | multiply => 2
  | relu | copy => 1

@[simp] theorem ofCode?_code (k : Kernel) : ofCode? k.code = some k := by
  cases k <;> rfl

theorem code_of_ofCode? {code : UInt8} {k : Kernel} (h : ofCode? code = some k) :
    k.code = code := by
  unfold ofCode? at h
  split at h <;> cases h <;> exact UInt8.toNat_inj.mp (Eq.symm ‹_›)

theorem arity_pos (k : Kernel) : 0 < k.arity := by
  cases k <;> decide

end Kernel

end TensorMachine
