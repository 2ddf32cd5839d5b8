import GuardTree.CommandLine.Arguments
import GuardTree.Document.Load
import GuardTree.Document.Render

/-! # A run of the command line

A run loads a document, reduces it and shows the result. A failure tells which of these it broke
off, unless that is clear from the failure itself.
-/

namespace GuardTree.CommandLine

set_option autoImplicit false

inductive Activity
  | loading (input : String)
  | reducing (input : String)
deriving DecidableEq

def Activity.message : Activity → String
  | .loading input => "failed to load " ++ input
  | .reducing input => "failed to reduce " ++ input

structure Breakdown where
  activity : Option Activity
  cause : Failure

/-- A run: what happened, and what is shown in the end. -/
structure Report where
  events : List Event
  outcome : Except Breakdown String

/-- A session with guard expressions and a policy of a given name. -/
def sessionFor (policy : String) (data : Node) : Except Failure Session :=
  match Policy.ofName? policy with
  | none => .error (.unknownPolicy policy)
  | some policy => Session.start .formulas policy data

/-- The reduction of a session with values from the sources, if there are any. -/
def reduceWith (sources : Sources) (environment : Resolver) (s : Session) : Traced Session := do
  Traced.note (.resolverReady sources.given.size sources.useEnvironment)
  s.reduce (if sources.isConfigured then some (sources.resolver environment) else none)

/-- Runs a command line, given the files and the environment. -/
def run (o : Options) (files : Files) (environment : Resolver) : Report :=
  let loaded := Document.load files o.input
  match loaded.outcome with
  | .error cause => ⟨loaded.events, .error ⟨some (.loading o.input), cause⟩⟩
  | .ok data =>
    match sessionFor o.policy data with
    | .error cause => ⟨loaded.events, .error ⟨none, cause⟩⟩
    | .ok session =>
      let reduced := reduceWith (.ofList o.given o.useEnvironment) environment session
      let events := loaded.events ++ reduced.events
      match reduced.outcome with
      | .error cause => ⟨events, .error ⟨some (.reducing o.input), cause⟩⟩
      | .ok s => ⟨events ++ [.noted (.finished o.input)], .ok (Document.render o.output o.compact s.data)⟩

end GuardTree.CommandLine
