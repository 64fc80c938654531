import TensorMachine.Number.Rounding

/-!
# Sizes in mebibytes

The text of a number of bytes in mebibytes with two decimals, as in `1.50 MiB`. The number of bytes
is first rounded to the 53 significant bits of a binary64 number; the quotient is then exact, and a
half of a hundredth goes to the even neighbour.
-/

namespace TensorMachine.Text

def mebibyte : Nat := 1 <<< 20

/-- The hundredths of a mebibyte nearest to a number of bytes. -/
def mebibyteHundredths (bytes : Nat) : Nat :=
  Number.roundDiv (100 * Number.roundToBits 53 bytes) mebibyte

/-- A natural number below one hundred in two digits. -/
def twoDigits (n : Nat) : String :=
  s!"{n / 10}{n % 10}"

/-- The text of a number of bytes in mebibytes. -/
def mebibytes (bytes : Nat) : String :=
  let hundredths := mebibyteHundredths bytes
  s!"{hundredths / 100}.{twoDigits (hundredths % 100)} MiB"

end TensorMachine.Text
