import GuardTree.CommandLine.Variable
import GuardTree.Document.Format

/-! # Arguments of a command line

Arguments are read from the left. `--name value` and `--name=value` are the same for an option with
a value; what starts with `-` is no value of its own, except `-` itself. After `--` every argument is
an input. What an argument adds to the options is checked only when the next argument asks for it,
so that an unknown argument comes before what is wrong with the one before it.

* `Options`: what a run is told to do.
* `UsageError`: why arguments tell no run what to do.
* `parse`: the options that arguments give.
-/

namespace GuardTree.CommandLine

set_option autoImplicit false

structure Options where
  /-- The path of the document. -/
  input : String
  /-- The name of the policy, which is not looked up yet. -/
  policy : String
  /-- The variables given by hand, in order. -/
  given : List (String × String)
  useEnvironment : Bool
  output : Format
  compact : Bool
deriving DecidableEq

inductive UsageError
  | help
  | version
  | missingInput
  | unknownArgument
  | invalidValue
  | badVariable (fault : VariableFault)
  /-- An option is given twice. -/
  | repeated
  /-- A flag is given a value. -/
  | tooManyValues
deriving DecidableEq

inductive Setting
  | policy
  | variable
  | output
deriving DecidableEq

inductive Flag
  | environment
  | compact
  | help
  | version
deriving DecidableEq

/-- The options as far as they have been given. -/
structure Draft where
  input : Option String
  policy : Option String
  given : List (String × String)
  useEnvironment : Bool
  output : Option Format
  compact : Bool

/-- What the last argument has begun. -/
inductive Pending
  | nothing
  | setting (s : Setting) (value : Option String)
  | input (path : String)

namespace Draft

def empty : Draft := ⟨none, none, [], false, none, false⟩

/-- The format of a name, which is spelt exactly. -/
def format? (name : String) : Option Format :=
  if name = Format.json.name then some .json
  else if name = Format.yaml.name then some .yaml
  else none

/-- Gives an option its value. Only variables may be given more than once. -/
def set (d : Draft) : Setting → String → Except UsageError Draft
  | .policy, value =>
    if d.policy.isSome then .error .repeated else .ok { d with policy := some value }
  | .variable, value =>
    match parseVariable value with
    | .ok v => .ok { d with given := d.given ++ [v] }
    | .error fault => .error (.badVariable fault)
  | .output, value =>
    if d.output.isSome then .error .repeated
    else match format? value with
      | some format => .ok { d with output := some format }
      | none => .error .invalidValue

def raise (d : Draft) : Flag → Except UsageError Draft
  | .environment =>
    if d.useEnvironment then .error .repeated else .ok { d with useEnvironment := true }
  | .compact => if d.compact then .error .repeated else .ok { d with compact := true }
  | .help => .error .help
  | .version => .error .version

def settle (d : Draft) : Pending → Except UsageError Draft
  | .nothing => .ok d
  | .setting _ none => .error .invalidValue
  | .setting s (some value) => d.set s value
  | .input path => if path.isEmpty then .error .invalidValue else .ok { d with input := some path }

/-- Whether an input has been given, finished or not. -/
def hasInput (d : Draft) : Pending → Bool
  | .input _ => true
  | _ => d.input.isSome

def defaultPolicy : String := "last"

/-- The options, if an input has been given. -/
def options (d : Draft) : Except UsageError Options :=
  match d.input with
  | none => .error .missingInput
  | some input => .ok {
      input
      policy := d.policy.getD defaultPolicy
      given := d.given
      useEnvironment := d.useEnvironment
      output := d.output.getD .json
      compact := d.compact }

end Draft

/-! ## Single arguments -/

inductive Meaning
  | setting (s : Setting)
  | flag (f : Flag)

def longName? : String → Option Meaning
  | "match" => some (.setting .policy)
  | "var" => some (.setting .variable)
  | "output" => some (.setting .output)
  | "env" => some (.flag .environment)
  | "compact" => some (.flag .compact)
  | "help" => some (.flag .help)
  | "version" => some (.flag .version)
  | _ => none

def shortName? : Char → Option Flag
  | 'h' => some .help
  | 'V' => some .version
  | _ => none

/-- Reads an argument after its `--`. -/
def readLong (d : Draft) (p : Pending) (cs : List Char) : Except UsageError (Draft × Pending) :=
  let (name, value) := match cutAtEquals? cs with
    | some (name, value) => (name, some (String.ofList value))
    | none => (cs, none)
  match longName? (String.ofList name), value with
  | none, _ => .error .unknownArgument
  | some (.flag _), some _ => .error .tooManyValues
  | some (.flag f), none => do
    let d ← d.settle p
    return (← d.raise f, .nothing)
  | some (.setting s), some value => do
    let d ← d.settle p
    return (← d.set s value, .nothing)
  | some (.setting s), none => do
    return (← d.settle p, .setting s none)

/-- Reads an argument after its `-`, whose first letter decides it. -/
def readShort (d : Draft) (p : Pending) (c : Char) : Except UsageError (Draft × Pending) :=
  match shortName? c with
  | none => .error .unknownArgument
  | some f => do
    let d ← d.settle p
    return (← d.raise f, .nothing)

def readInput (d : Draft) (p : Pending) (a : String) : Except UsageError (Draft × Pending) :=
  if d.hasInput p then .error .unknownArgument
  else do return (← d.settle p, .input a)

/-- Reads an argument before any `--`. -/
def readArgument (d : Draft) (p : Pending) (a : String) : Except UsageError (Draft × Pending) :=
  match a.toList, p with
  | '-' :: '-' :: cs, p => readLong d p cs
  | '-' :: c :: _, p => readShort d p c
  | _, .setting s none => .ok (d, .setting s (some a))
  | _, p => readInput d p a

/-! ## All arguments -/

def endOfOptions : String := "--"

/-- Reads arguments, all of them inputs if `inputsOnly`. -/
def readArguments (d : Draft) (p : Pending) (inputsOnly : Bool) :
    List String → Except UsageError Draft
  | [] => d.settle p
  | a :: as =>
    if inputsOnly then do
      let (d, p) ← readInput d p a
      readArguments d p true as
    else if a = endOfOptions then readArguments d p true as
    else do
      let (d, p) ← readArgument d p a
      readArguments d p false as

def parse (arguments : List String) : Except UsageError Options := do
  (← readArguments .empty .nothing false arguments).options

end GuardTree.CommandLine
