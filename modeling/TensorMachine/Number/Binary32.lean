/-!
# Binary32 arithmetic

Operations on binary32 numbers that are given by their bits. Whatever is no number comes out with
the bits of the quiet one without sign or payload.
-/

namespace TensorMachine.Binary32

def add (a b : UInt32) : UInt32 := (Float32.ofBits a + Float32.ofBits b).toBits

def multiply (a b : UInt32) : UInt32 := (Float32.ofBits a * Float32.ofBits b).toBits

/-- The bits of positive infinity, the largest of the positive numbers. -/
def infinity : UInt32 := 0x7f800000

/-- The larger of a number and zero. All that is not positive, and what is no number, gives zero;
the positive numbers are those whose bits lie between zero and infinity. -/
def rectify (a : UInt32) : UInt32 := if a ≤ infinity then a else 0

end TensorMachine.Binary32
