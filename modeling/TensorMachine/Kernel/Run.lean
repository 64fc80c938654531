import TensorMachine.Kernel.Basic
import TensorMachine.Kernel.Elements
import TensorMachine.Number.Binary32

/-!
# Kernels on bytes

What the kernels compute from the contents of their operands. The result has the length of the
first operand; bytes behind its last whole element are zero.
-/

namespace TensorMachine.Kernel

/-- Runs the kernel on the contents of its operands. There is no answer when an operand is missing
or too short; operands that the kernel does not take are ignored. -/
def run? (k : Kernel) (operands : List Bytes) : Option Bytes :=
  match k, operands with
  | add, a :: b :: _ => Elements.zipInto Binary32.add a b (List.replicate a.length 0)
  | multiply, a :: b :: _ => Elements.zipInto Binary32.multiply a b (List.replicate a.length 0)
  | relu, a :: _ => Elements.mapInto Binary32.rectify a (List.replicate a.length 0)
  | copy, a :: _ => some a
  | _, _ => none

theorem run?_of_length {k : Kernel} {operands : List Bytes} {n : Nat}
    (hcount : operands.length = k.arity) (hlength : ∀ operand ∈ operands, operand.length = n) :
    ∃ result, k.run? operands = some result ∧ result.length = n := by
  have unary (op : UInt32 → UInt32) (a : Bytes) (ha : a.length = n) :
      ∃ result, Elements.mapInto op a (List.replicate a.length 0) = some result ∧
        result.length = n := by
    have hle : (List.replicate a.length (0 : UInt8)).length ≤ a.length := by simp
    obtain ⟨result, hrun, hresult⟩ := Elements.mapInto_of_length_le op hle
    exact ⟨result, hrun, by rw [hresult, List.length_replicate, ha]⟩
  have binary (op : UInt32 → UInt32 → UInt32) (a b : Bytes) (ha : a.length = n)
      (hb : b.length = n) :
      ∃ result, Elements.zipInto op a b (List.replicate a.length 0) = some result ∧
        result.length = n := by
    have hleft : (List.replicate a.length (0 : UInt8)).length ≤ a.length := by simp
    have hright : (List.replicate a.length (0 : UInt8)).length ≤ b.length := by simp [ha, hb]
    obtain ⟨result, hrun, hresult⟩ := Elements.zipInto_of_length_le op hleft hright
    exact ⟨result, hrun, by rw [hresult, List.length_replicate, ha]⟩
  match k, operands with
  | add, [a, b] => exact binary Binary32.add a b (hlength a (by simp)) (hlength b (by simp))
  | multiply, [a, b] =>
    exact binary Binary32.multiply a b (hlength a (by simp)) (hlength b (by simp))
  | relu, [a] => exact unary Binary32.rectify a (hlength a (by simp))
  | copy, [a] => exact ⟨a, rfl, hlength a (by simp)⟩

end TensorMachine.Kernel
