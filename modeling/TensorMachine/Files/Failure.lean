/-!
# Failures to read a file

The causes for which a file cannot be read, with the texts and numbers of the operating system.
-/

namespace TensorMachine

/-- Why a file could not be read. -/
inductive ReadFailure where
  | notFound
  | permissionDenied
  | notDirectory
  | isDirectory
  | nameTooLong
  | other (reason : String)
  deriving DecidableEq

namespace ReadFailure

def text : ReadFailure → String
  | notFound => "No such file or directory (os error 2)"
  | permissionDenied => "Permission denied (os error 13)"
  | notDirectory => "Not a directory (os error 20)"
  | isDirectory => "Is a directory (os error 21)"
  | nameTooLong => "File name too long (os error 36)"
  | other reason => reason

/-- The failure that the operating system reports under a number, if it has a name here. -/
def ofNumber? : Nat → Option ReadFailure
  | 2 => some notFound
  | 13 => some permissionDenied
  | 20 => some notDirectory
  | 21 => some isDirectory
  | 36 => some nameTooLong
  | _ => none

end ReadFailure

end TensorMachine
