import TensorMachine.Device.Error

/-!
# Result types of kernels

A kernel takes as many operands as its arity says, all of one type. All kernels but the copy work
on binary32 elements only. The result has the type of the operands.
-/

namespace TensorMachine.Kernel

/-- The type of the result of a kernel on operands of the given types. -/
def resultType (k : Kernel) (operands : List TensorType) : Except DeviceError TensorType :=
  if operands.length ≠ k.arity then
    .error (.operands (.arity k operands.length))
  else
    match operands with
    | [] => .error (.operands (.arity k 0))
    | first :: others =>
      match others.find? (· != first) with
      | some other => .error (.operands (.mismatch k first other))
      | none =>
        if k ≠ .copy ∧ first.element ≠ .f32 then .error (.unsupported k first.element)
        else .ok first

theorem resultType_eq_ok_iff {k : Kernel} {operands : List TensorType} {type : TensorType} :
    k.resultType operands = .ok type ↔
      operands.length = k.arity ∧ (∀ operand ∈ operands, operand = type) ∧
        (k = .copy ∨ type.element = .f32) := by
  unfold resultType
  split
  case isTrue hcount => simp [hcount]
  case isFalse hcount =>
    have hcount : operands.length = k.arity := Decidable.not_not.mp hcount
    cases operands with
    | nil =>
      have harity := k.arity_pos
      simp only [List.length_nil] at hcount
      omega
    | cons first others =>
      have hsame : others.find? (· != first) = none ↔ ∀ other ∈ others, other = first := by simp
      cases hother : others.find? (· != first) with
      | some other =>
        have hdiffers : ¬∀ other ∈ others, other = first := by simp [← hsame, hother]
        simp only [List.forall_mem_cons]
        grind
      | none =>
        have hothers := hsame.mp hother
        simp only [List.forall_mem_cons]
        grind

end TensorMachine.Kernel
