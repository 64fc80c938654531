/-!
# Escaped control characters

Text from outside could steer the terminal on which it is shown. Wherever that must not happen, the
characters that can do so give way to the text of their numbers. Tabs, line ends and all other
characters stand for themselves.
-/

namespace TensorMachine.Text

/-- Whether the character is a bell, a backspace, a form feed, an escape or a delete. -/
def isSteering (c : Char) : Bool :=
  c.toNat ∈ [0x07, 0x08, 0x0c, 0x1b, 0x7f]

/-- Whether the character is one of the 32 control characters that follow the delete. -/
def isHighControl (c : Char) : Bool :=
  0x80 ≤ c.toNat ∧ c.toNat ≤ 0x9f

/-- A number below 256 in two hexadecimal digits. -/
def twoHexDigits (n : Nat) : List Char :=
  [Nat.digitChar (n / 16), Nat.digitChar (n % 16)]

def escapedChar (c : Char) : List Char :=
  if isSteering c then ['\\', 'x'] ++ twoHexDigits c.toNat
  else if isHighControl c then ['\\', 'u', '\x7b'] ++ twoHexDigits c.toNat ++ ['\x7d']
  else [c]

def escaped (text : String) : String :=
  String.ofList (text.toList.flatMap escapedChar)

end TensorMachine.Text
