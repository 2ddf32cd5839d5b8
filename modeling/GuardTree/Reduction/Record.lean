import GuardTree.Document.Format
import GuardTree.Formula.Error
import GuardTree.Placeholder.Basic
import GuardTree.Reduction.Policy
import GuardTree.Tree.Node

/-! # What a run reports about itself -/

namespace GuardTree

set_option autoImplicit false

inductive Severity
  | info
  | debug
  | trace
deriving DecidableEq

def Severity.name : Severity → String
  | .info => "INFO"
  | .debug => "DEBUG"
  | .trace => "TRACE"

/-- A step of loading or reducing that is worth a line in a log. -/
inductive Record
  /-- A file is loaded, in the format of its extension or in a given one. -/
  | loading (format : Option Format) (path : String)
  | parsing (format : Format) (bytes : Nat)
  /-- A key is no guard because it is no expression. -/
  | notGuard (error : Formula.Error)
  | expanded (placeholder : Placeholder) (value : String)
  /-- A name is unknown; its longest known part was taken and the rest kept. -/
  | fellBack (name known rest : String)
  | renamed (before after : String)
  /-- A guard was selected among so many that are true. -/
  | selected (guard : String) (policy : Policy) (candidates : Nat)
  | descending (key : String)
  | reducing (policy : Policy) (resolver : Bool)
  | reducedTo (kind : NodeKind)
  | reduced
  | resolverReady (given : Nat) (environment : Bool)
  | finished (input : String)

namespace Record

def severity : Record → Severity
  | .loading _ _ => .info
  | .notGuard _ => .trace
  | .expanded _ _ => .trace
  | .reducing _ _ => .info
  | .reduced => .info
  | .finished _ => .info
  | _ => .debug

def message : Record → String
  | .loading none path => "loading parameters from path: " ++ path
  | .loading (some format) path =>
    "loading " ++ format.name ++ " parameters from path: " ++ path
  | .parsing format bytes =>
    "parsing " ++ format.name ++ " parameters (len=" ++ toString bytes ++ ")"
  | .notGuard error => "not a guard: " ++ error.message
  | .expanded placeholder value => "expanded " ++ placeholder.spelling ++ " -> " ++ value
  | .fellBack name known rest =>
    "`$" ++ name ++ "` is unknown; expanded `$" ++ known ++ "` and kept `" ++ rest ++
      "` literally"
  | .renamed before after => "renamed key `" ++ before ++ "` -> `" ++ after ++ "`"
  | .selected guard policy candidates =>
    "selected guard `" ++ guard ++ "` (policy=" ++ policy.name ++ ", true=" ++
      toString candidates ++ ")"
  | .descending key => "reducing nested mapping `" ++ key ++ "`"
  | .reducing policy resolver =>
    "reducing parameter data (policy=" ++ policy.name ++ ", resolver_set=" ++
      toString resolver ++ ")"
  | .reducedTo kind => "reduced parameter data to " ++ kind.name
  | .reduced => "parameter data reduced"
  | .resolverReady given environment =>
    "cli resolver (vars=" ++ toString given ++ ", env=" ++ toString environment ++ ")"
  | .finished input => "reduced " ++ input

def line (r : Record) : String := r.severity.name ++ " " ++ r.message

end Record

end GuardTree
