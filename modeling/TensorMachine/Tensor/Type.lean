import TensorMachine.Tensor.Element
import TensorMachine.Text.Listing

/-!
# Tensor types

A tensor type is an element type with a list of dimensions. Counts and sizes are those of a
64-bit address space: they are undefined when a product on the way does not fit.
-/

namespace TensorMachine

/-- An element type together with the dimensions of the tensor, outermost first. -/
structure TensorType where
  element : ElementType
  dims : List UInt32
  deriving DecidableEq

/-- The product, if it is below `2 ^ 64`. -/
def boundedMul (a b : Nat) : Option Nat :=
  if a * b < UInt64.size then some (a * b) else none

namespace TensorType

def rank (t : TensorType) : Nat := t.dims.length

/-- The number of elements: the dimensions are multiplied from the left, starting with one, and
every partial product has to fit. -/
def count? (t : TensorType) : Option Nat :=
  t.dims.foldlM (fun n d => boundedMul n d.toNat) 1

def byteSize? (t : TensorType) : Option Nat :=
  t.count?.bind (boundedMul · t.element.width)

/-- The element type followed by the dimensions, as in `F32[2, 4]`. -/
def text (t : TensorType) : String :=
  t.element.name ++ Text.listingOfNats (t.dims.map UInt32.toNat)

end TensorType

theorem boundedMul_eq_some_iff {a b n : Nat} :
    boundedMul a b = some n ↔ a * b = n ∧ n < UInt64.size := by
  unfold boundedMul
  split <;> grind

end TensorMachine
