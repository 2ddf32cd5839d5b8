import GuardTree.CommandLine.Run

/-! # What is said to the user of the command line -/

namespace GuardTree.CommandLine

set_option autoImplicit false

def usage : String :=
  "Usage: guardtree [OPTIONS] INPUT\n\n" ++
  "Reduces the guarded mappings of a document (.json, .yaml or .yml) and prints what is left.\n\n" ++
  "  --match first|last    which satisfied guard wins (default: last)\n" ++
  "  --var NAME=VALUE      the value of a placeholder; may be repeated\n" ++
  "  --env                 use environment variables for other names\n" ++
  "  --output json|yaml    the format of the output (default: json)\n" ++
  "  --compact             JSON on a single line\n" ++
  "  -h, --help            print this text\n" ++
  "  -V, --version         print the version"

def version : String := "guardtree 0.1.0"

def UsageError.message : UsageError → String
  | .help => usage
  | .version => GuardTree.CommandLine.version
  | .missingInput => "no input was given"
  | .unknownArgument => "unexpected argument"
  | .invalidValue => "invalid or missing value of an argument"
  | .badVariable fault => "invalid value of --var: " ++ fault.message
  | .repeated => "an option was given more than once"
  | .tooManyValues => "an option takes no value"

def UsageError.isRequest (e : UsageError) : Bool := e == .help || e == .version

def Breakdown.message (b : Breakdown) : String :=
  match b.activity with
  | some a => a.message ++ ": " ++ b.cause.message
  | none => b.cause.message

end GuardTree.CommandLine
