import GuardTree.Formula.Error
import GuardTree.Json.Writer
import GuardTree.Placeholder.Basic

/-! # Why a tree cannot be loaded or reduced

A `Failure` names its cause and carries the key, the mapping or the expression at fault;
`Failure.message` words it. Mappings are shown as compact JSON.
-/

namespace GuardTree

set_option autoImplicit false

/-- Why a placeholder has no replacement. -/
inductive NoValue
  | noResolver
  | unknown
deriving DecidableEq

def NoValue.message : NoValue → String
  | .noResolver => "no resolver was provided"
  | .unknown => "the resolver returned no value"

inductive ReadFault
  | notFound
  /-- The file is there but cannot be read. -/
  | refused
  /-- The bytes of the file are not UTF-8. -/
  | notText
deriving DecidableEq

/-- Why a JSON text gives no tree of the wanted kind. -/
inductive JsonFault
  | malformed
  | notMapping (kind : NodeKind)
deriving DecidableEq

inductive Failure
  /-- The tree to be reduced is not a mapping. -/
  | schema (data : Node)
  /-- Some keys of a mapping are guards and some are not. -/
  | mixedGuard (entries : List (String × Node))
  /-- A guard still has a placeholder when it is evaluated. -/
  | unresolvedGuardVariable (guard : String)
  | nonBooleanGuard (guard : String) (value : Formula.Value)
  | noGuardSatisfied (entries : List (String × Node))
  | unknownPolicy (name : String)
  | expansion (placeholder : Placeholder) (reason : NoValue)
  | alreadyReduced
  | emptyData
  | formula (guard : String) (error : Formula.Error)
  | read (fault : ReadFault)
  | json (fault : JsonFault)
  | yaml
  | unsupportedFormat (path : String)

def Failure.message : Failure → String
  | .schema data =>
    "parameter data must be a mapping, got " ++ data.kind.name ++ ": " ++ Json.compact data
  | .mixedGuard entries =>
    "only a subset of the keys are guards (logical expressions): " ++
      Json.compact (.mapping entries)
  | .unresolvedGuardVariable guard =>
    "the guard `" ++ guard ++ "` has an expandable variable; " ++
      "all variables must be expanded before guards are evaluated"
  | .nonBooleanGuard guard value =>
    "guard `" ++ guard ++ "` is not boolean (evaluated to " ++ value.display ++ ")"
  | .noGuardSatisfied entries =>
    "none of the guards evaluate to true: " ++ Json.compact (.mapping entries)
  | .unknownPolicy name =>
    "unknown match policy `" ++ name ++ "` (expected `first` or `last`)"
  | .expansion placeholder reason =>
    "cannot expand the variable `" ++ placeholder.spelling ++ "`: " ++ reason.message
  | .alreadyReduced => "parameter data already reduced"
  | .emptyData => "empty parameter data"
  | .formula guard error => "failed to evaluate guard `" ++ guard ++ "`: " ++ error.message
  | .read .notFound => "failed to read parameter file: no such file"
  | .read .refused => "failed to read parameter file: cannot be read"
  | .read .notText => "failed to read parameter file: not valid UTF-8"
  | .json .malformed => "failed to parse json"
  | .json (.notMapping kind) =>
    "failed to parse json: invalid type: " ++ kind.name ++ ", expected a mapping"
  | .yaml => "failed to parse yaml"
  | .unsupportedFormat path => "unsupported parameter file format: " ++ path

end GuardTree
