/-!
# Rounding

Quotients of natural numbers rounded to the nearest natural number, a half going to the even
neighbour, and natural numbers rounded to a number of significant bits by the same rule.
-/

namespace TensorMachine.Number

/-- The natural number nearest to `num / den`; of two nearest ones the even one. -/
def roundDiv (num den : Nat) : Nat :=
  let quotient := num / den
  let rest := num % den
  if 2 * rest < den then quotient
  else if den < 2 * rest then quotient + 1
  else if quotient % 2 = 0 then quotient
  else quotient + 1

/-- The multiple of a power of two with at most `bits` significant bits that is nearest to `n`. A
number that has no more bits than that stays as it is. -/
def roundToBits (bits n : Nat) : Nat :=
  let unit := 1 <<< (n.log2 + 1 - bits)
  roundDiv n unit * unit

end TensorMachine.Number
