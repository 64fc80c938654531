/-!
# Shortest decimals

The shortest decimal that reads back as a given binary floating-point number. Such a number stands
for the interval of reals that round to it. For one digit, two digits and so on, the two neighbours
of the number on the grid of decimals with that many digits are tried; the first grid with a
neighbour in the interval gives the digits. Of two neighbours in the interval the nearer one is
taken, and the larger one in the middle.
-/

namespace TensorMachine.Number

structure Decimal where
  digits : Nat
  exponent : Int
  deriving DecidableEq

def Decimal.trim (d : Decimal) : Decimal :=
  if d.digits % 10 = 0 then ⟨d.digits / 10, d.exponent + 1⟩ else d

/-- The interval around the positive number `value * unit` from `low * unit` to `high * unit`,
where the unit is `2 ^ exponent`; the ends belong to it if it is closed. -/
structure BinaryInterval where
  low : Nat
  value : Nat
  high : Nat
  exponent : Int
  closed : Bool

namespace BinaryInterval

/-- The factors by which a binary and a decimal unit are compared: a binary quantity `a` and a
decimal quantity `c` compare as `a * factors.1` and `c * factors.2`. -/
def factors (binary decimal : Int) : Nat × Nat :=
  (Nat.pow 2 binary.toNat * Nat.pow 10 (-decimal).toNat,
    Nat.pow 10 decimal.toNat * Nat.pow 2 (-binary).toNat)

def contains (i : BinaryInterval) (d : Decimal) : Bool :=
  let (binary, decimal) := factors i.exponent d.exponent
  let point := d.digits * decimal
  if i.closed then i.low * binary ≤ point && point ≤ i.high * binary
  else i.low * binary < point && point < i.high * binary

def neighbours (i : BinaryInterval) (exponent : Int) : Decimal × Decimal × Bool :=
  let (binary, decimal) := factors i.exponent exponent
  let below := i.value * binary / decimal
  let rest := i.value * binary % decimal
  (⟨below, exponent⟩, ⟨below + 1, exponent⟩, 2 * rest < decimal)

/-- The decimal of a grid that is taken for the number, if one reads back as it. -/
def onGrid? (i : BinaryInterval) (exponent : Int) : Option Decimal :=
  let (below, above, nearerBelow) := i.neighbours exponent
  match i.contains below, i.contains above with
  | true, true => some (if nearerBelow then below else above)
  | true, false => some below
  | false, true => some above
  | false, false => none

/-- The shortest decimal of a number below `10 ^ magnitude`, searched for among those with more than
`tried` digits, up to `most` more. The upper neighbour on the first grid may be a power of ten; it
loses its zero. -/
def shortestFrom (i : BinaryInterval) (magnitude : Int) : Nat → Nat → Option Decimal
  | 0, _ => none
  | most + 1, tried =>
    match i.onGrid? (magnitude - (tried + 1)) with
    | some d => some d.trim
    | none => i.shortestFrom magnitude most (tried + 1)

/-- The least magnitude at or above the start such that the number is below the power of ten of
that magnitude, searched for in a number of steps. -/
def magnitudeFrom (i : BinaryInterval) (start : Int) : Nat → Int
  | 0 => start
  | steps + 1 =>
    let (binary, decimal) := factors i.exponent start
    if i.value * binary < decimal then start else i.magnitudeFrom (start + 1) steps

end BinaryInterval

end TensorMachine.Number
