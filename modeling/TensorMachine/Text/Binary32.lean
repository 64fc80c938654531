import TensorMachine.Number.Shortest

/-!
# The text of binary32 numbers

A binary32 number is written with the fewest digits that read back. Numbers from one
ten-thousandth up to `10 ^ 16` are written positionally, with at least one digit behind the point;
all others have one digit in front of the point and an exponent.
-/

namespace TensorMachine.Text

/-- The parts of a binary32 number given by its bits. -/
structure Binary32Parts where
  negative : Bool
  exponent : Nat
  fraction : Nat

def Binary32Parts.ofBits (bits : UInt32) : Binary32Parts :=
  let n := bits.toNat
  ⟨n >>> 31 == 1, n >>> 23 % 256, n % (1 <<< 23)⟩

/-- The reals that round to a positive finite number, in quarters of its last place. The gap below
a power of two is half as wide as the one above. -/
def Binary32Parts.interval (p : Binary32Parts) : Number.BinaryInterval :=
  let significand := if p.exponent = 0 then p.fraction else (1 <<< 23) + p.fraction
  let exponent : Int := (max p.exponent 1 : Nat) - 150
  let narrow := p.fraction = 0 ∧ 1 < p.exponent
  { low := 4 * significand - if narrow then 1 else 2
    value := 4 * significand
    high := 4 * significand + 2
    exponent := exponent - 2
    closed := significand % 2 == 0 }

/-- The shortest decimal of a positive finite number; nine digits are always enough. -/
def Binary32Parts.shortest (p : Binary32Parts) : Number.Decimal :=
  let interval := p.interval
  (interval.shortestFrom (interval.magnitudeFrom (-45) 85) 9 0).getD ⟨0, 0⟩

def zeros (n : Nat) : String := String.ofList (List.replicate n '0')

/-- A decimal in positional notation, with at least one digit behind the point. -/
def positional (d : Number.Decimal) : String :=
  let digits := toString d.digits
  let point := (digits.length : Int) + d.exponent
  if 0 ≤ d.exponent then digits ++ zeros d.exponent.toNat ++ ".0"
  else if 0 < point then
    String.ofList (digits.toList.take point.toNat) ++ "." ++
      String.ofList (digits.toList.drop point.toNat)
  else "0." ++ zeros (-point).toNat ++ digits

/-- A decimal with one digit in front of the point and an exponent. -/
def scientific (d : Number.Decimal) : String :=
  let digits := toString d.digits
  let exponent := (digits.length : Int) + d.exponent - 1
  match digits.toList with
  | [] => ""
  | [first] => String.ofList [first] ++ s!"e{exponent}"
  | first :: rest => String.ofList (first :: '.' :: rest) ++ s!"e{exponent}"

def positiveBinary32 (p : Binary32Parts) : String :=
  let d := p.shortest
  let magnitude := ((toString d.digits).length : Int) + d.exponent
  if -3 ≤ magnitude ∧ magnitude ≤ 16 then positional d else scientific d

def binary32 (bits : UInt32) : String :=
  let p := Binary32Parts.ofBits bits
  let lead := if p.negative then "-" else ""
  if p.exponent = 255 then (if p.fraction = 0 then lead ++ "inf" else "NaN")
  else if p.exponent = 0 ∧ p.fraction = 0 then lead ++ "0.0"
  else lead ++ positiveBinary32 p

end TensorMachine.Text
