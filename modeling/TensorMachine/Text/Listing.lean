/-!
# Bracketed listings

The text of a list in reports and messages: the items in order, separated by a comma and a blank,
between square brackets.
-/

namespace TensorMachine.Text

/-- The items between square brackets, separated by a comma and a blank. -/
def listing (items : List String) : String :=
  "[" ++ ", ".intercalate items ++ "]"

def listingOfNats (values : List Nat) : String :=
  listing (values.map toString)

end TensorMachine.Text
