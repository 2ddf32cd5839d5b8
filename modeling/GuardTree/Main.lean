import GuardTree.CommandLine.Usage

/-! # The program

Reads the input and those variables of the environment that a run asks for, and shows what the run
gives.
-/

namespace GuardTree.CommandLine

set_option autoImplicit false

def readFile (path : String) : IO (Except ReadFault ByteArray) := do
  try
    return .ok (← IO.FS.readBinFile path)
  catch
    | .noFileOrDirectory .. => return .error .notFound
    | _ => return .error .refused

/-- Runs with ever more of the environment, until a run asks for nothing that is not known. -/
partial def runAsking (o : Options) (files : Files) (known : List (String × Option String)) :
    IO Report := do
  let report := run o files fun name => (known.lookup name).join
  let asked := report.events.filterMap fun
    | .asked name => some name
    | .noted _ => none
  let unknown := asked.filter fun name => (known.lookup name).isNone
  if unknown.isEmpty || !o.useEnvironment then return report
  let values ← unknown.eraseDups.mapM fun name => return (name, ← IO.getEnv name)
  runAsking o files (known ++ values)

end GuardTree.CommandLine

open GuardTree CommandLine in
/-- The program. It fails with 1 if the run fails, and with 2 if the arguments do not fit. -/
def main (arguments : List String) : IO UInt32 := do
  match parse arguments with
  | .error e =>
    if e.isRequest then IO.println e.message else IO.eprintln ("error: " ++ e.message)
    return if e.isRequest then 0 else 2
  | .ok o =>
    let content ← readFile o.input
    let report ← runAsking o (fun _ => content) []
    match report.outcome with
    | .ok out =>
      IO.println out
      return 0
    | .error b =>
      IO.eprintln ("Error: " ++ b.message)
      return 1
