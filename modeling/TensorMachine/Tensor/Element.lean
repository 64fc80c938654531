/-!
# Element types

The types of the elements of a tensor, their width in bytes, their code in the binary program
layout and their name.
-/

namespace TensorMachine

/-- The types that the elements of a tensor may have. -/
inductive ElementType where
  | f32
  | f16
  | bf16
  | i32
  | u32
  | u16
  | u8
  deriving DecidableEq

namespace ElementType

def width : ElementType → Nat
  | f32 | i32 | u32 => 4
  | f16 | bf16 | u16 => 2
  | u8 => 1

/-- The code of the element type in the binary layout. -/
def code : ElementType → UInt8
  | f32 => 0
  | f16 => 1
  | bf16 => 2
  | i32 => 3
  | u32 => 4
  | u16 => 5
  | u8 => 6

/-- The element type of a code, if there is one. -/
def ofCode? (code : UInt8) : Option ElementType :=
  match code.toNat with
  | 0 => some f32
  | 1 => some f16
  | 2 => some bf16
  | 3 => some i32
  | 4 => some u32
  | 5 => some u16
  | 6 => some u8
  | _ => none

/-- The name of the element type in texts. -/
def name : ElementType → String
  | f32 => "F32"
  | f16 => "F16"
  | bf16 => "BF16"
  | i32 => "I32"
  | u32 => "U32"
  | u16 => "U16"
  | u8 => "U8"

@[simp] theorem ofCode?_code (e : ElementType) : ofCode? e.code = some e := by
  cases e <;> rfl

theorem code_of_ofCode? {code : UInt8} {e : ElementType} (h : ofCode? code = some e) :
    e.code = code := by
  unfold ofCode? at h
  split at h <;> cases h <;> exact UInt8.toNat_inj.mp (Eq.symm ‹_›)

theorem width_pos (e : ElementType) : 0 < e.width := by
  cases e <;> decide

end ElementType

end TensorMachine
