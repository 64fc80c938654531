/-!
# Command-line options

The command line is read from the left. A request for help ends the reading, and so does a mistake:
a GPU index that is missing or no number, or a second file.
-/

namespace TensorMachine.CommandLine

structure Options where
  verifyFirst : Bool := false
  gpu : Option Nat := none
  path : Option String := none
  deriving DecidableEq

inductive Request where
  | run (options : Options)
  | help
  | mistake
  deriving DecidableEq

/-- The options of a request to run, without a choice for any other. -/
def Request.options : Request → Options
  | .run options => options
  | .help | .mistake => {}

def usage : String := "usage: tensorexec [--verify] [--vulkan <gpu index>] [program.bin]"

/-- The number of decimal digits, if all characters are. -/
def digits? (cs : List Char) : Option Nat :=
  cs.foldlM (fun n c => if c.isDigit then some (10 * n + (c.toNat - '0'.toNat)) else none) 0

/-- An index below `2 ^ 64` in decimal digits, with at most one plus in front. -/
def index? (text : String) : Option Nat :=
  let digits := match text.toList with
    | '+' :: rest => rest
    | cs => cs
  match digits with
  | [] => none
  | cs => (digits? cs).bind fun n => if n < UInt64.size then some n else none

def parseAfter (options : Options) : List String → Request
  | [] => .run options
  | "--verify" :: rest => parseAfter { options with verifyFirst := true } rest
  | "--vulkan" :: index :: rest =>
    match index? index with
    | some n => parseAfter { options with gpu := some n } rest
    | none => .mistake
  | ["--vulkan"] => .mistake
  | arg :: rest =>
    if arg = "-h" ∨ arg = "--help" then .help
    else
      match options.path with
      | none => parseAfter { options with path := some arg } rest
      | some _ => .mistake

def parse (args : List String) : Request := parseAfter {} args

end TensorMachine.CommandLine
