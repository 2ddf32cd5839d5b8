import GuardTree.Placeholder.Expansion
import GuardTree.Text.CharClass
import GuardTree.Tree.OrderedMap

/-! # Variables given by hand

A variable is given as `NAME=VALUE`, cut at the first `=`. Variables given by hand go before those
of the environment, which are used only on demand.
-/

namespace GuardTree.CommandLine

set_option autoImplicit false

inductive VariableFault
  | noValue (text : String)
  | badName (name : String)
deriving DecidableEq

def VariableFault.message : VariableFault → String
  | .noValue text => "expected NAME=VALUE, got `" ++ text ++ "`"
  | .badName name => "invalid variable name `" ++ name ++ "`"

/-- Cuts a text at its first `=`. -/
def cutAtEquals? (cs : List Char) : Option (List Char × List Char) :=
  match cs.dropWhile (· != '=') with
  | [] => none
  | _ :: value => some (cs.takeWhile (· != '='), value)

/-- The name of a variable: at least one character, all of them name characters. -/
def isVariableName (name : List Char) : Bool := !name.isEmpty && name.all Text.isNameChar

def parseVariable (text : String) : Except VariableFault (String × String) :=
  match cutAtEquals? text.toList with
  | none => .error (.noValue text)
  | some (name, value) =>
    if isVariableName name then .ok (String.ofList name, String.ofList value)
    else .error (.badName (String.ofList name))

/-! ## Where values come from -/

/-- The variables of an environment, as texts `NAME=VALUE`. -/
abbrev Environment := List String

/-- The value of a name: what follows `NAME=` in the first text that starts so. No name is empty. -/
def Environment.lookUp (e : Environment) (name : String) : Option String :=
  let start := name.toList ++ ['=']
  if name.isEmpty then none
  else e.findSome? fun entry =>
    if start.isPrefixOf entry.toList then some (String.ofList (entry.toList.drop start.length))
    else none

structure Sources where
  /-- The variables given by hand; of several with one name the last one counts. -/
  given : OrderedMap String
  /-- Whether the environment is used too. -/
  useEnvironment : Bool

namespace Sources

def ofList (given : List (String × String)) (useEnvironment : Bool) : Sources :=
  ⟨.ofList given, useEnvironment⟩

def isConfigured (s : Sources) : Bool := s.useEnvironment || !s.given.isEmpty

/-- The value of a name, given what the environment holds. -/
def resolver (s : Sources) (environment : Resolver) : Resolver := fun name =>
  match s.given.get? name with
  | some value => some value
  | none => if s.useEnvironment then environment name else none

end Sources

end GuardTree.CommandLine
