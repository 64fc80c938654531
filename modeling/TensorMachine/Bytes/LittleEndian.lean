/-!
# Little-endian integers

A natural number written in a given number of bytes, lowest byte first, and the number that a list
of bytes stands for.
-/

namespace TensorMachine

abbrev Bytes := List UInt8

namespace LittleEndian

/-- The lowest `width` bytes of a number, lowest first. -/
def split : Nat → Nat → Bytes
  | 0, _ => []
  | width + 1, n => UInt8.ofNat n :: split width (n / 256)

/-- The number whose bytes are given, lowest first. -/
def combine : Bytes → Nat
  | [] => 0
  | b :: bs => b.toNat + 256 * combine bs

@[simp] theorem length_split (width n : Nat) : (split width n).length = width := by
  induction width generalizing n with
  | zero => rfl
  | succ width ih => simp [split, ih]

theorem split_combine (bs : Bytes) : split bs.length (combine bs) = bs := by
  induction bs with
  | nil => rfl
  | cons b bs ih =>
    have hb : b.toNat < 256 := b.toNat_lt
    have hdiv : (b.toNat + 256 * combine bs) / 256 = combine bs := by omega
    have hlow : UInt8.ofNat (b.toNat + 256 * combine bs) = b := by
      apply UInt8.toNat_inj.mp
      simp only [UInt8.toNat_ofNat']
      omega
    simp only [combine, List.length_cons, split, hdiv, hlow, ih]

end LittleEndian

end TensorMachine
