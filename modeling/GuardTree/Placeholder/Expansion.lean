import GuardTree.Reduction.Traced

/-! # Expansion of placeholders

`expand` replaces every placeholder of a text by the value of its name. Each distinct placeholder is
looked up once, at its first occurrence, and what is put in is not looked at again. `${NAME}` needs
the value of NAME itself; `$NAME` also makes do with the longest beginning of NAME before a `_` that
has a value, the rest being kept as it stands.
-/

namespace GuardTree

set_option autoImplicit false

/-- Gives names their values, as far as they have any. -/
abbrev Resolver := String → Option String

namespace Placeholder

def ask (r : Resolver) (name : String) : Traced (Option String) := ⟨[.asked name], .ok (r name)⟩

/-- The ways to cut a name before a `_`, something being left on both sides: the longest beginning
first. `before` is what has been passed already. -/
def cuts (before : List Char) : List Char → List (List Char × List Char)
  | [] => []
  | c :: r =>
    cuts (before ++ [c]) r ++ (if c = '_' ∧ before ≠ [] then [(before, c :: r)] else [])

/-- The value of the first beginning that has one, with the rest of the name after it. -/
def fallBack (r : Resolver) (name : String) : List (List Char × List Char) → Traced (Option String)
  | [] => return none
  | (known, rest) :: others => do
    match ← ask r (String.ofList known) with
    | some value =>
      Traced.note (.fellBack name (String.ofList known) (String.ofList rest))
      return some (value ++ String.ofList rest)
    | none => fallBack r name others

/-- The replacement of a placeholder, if it has one. -/
def lookUp (r : Resolver) (p : Placeholder) : Traced (Option String) := do
  match ← ask r p.name with
  | some value => return some value
  | none => if p.braced then return none else fallBack r p.name (cuts [] p.name.toList)

/-- The replacement of a placeholder; without a resolver there is none. -/
def resolve (r : Option Resolver) (p : Placeholder) : Traced String := do
  match r with
  | none => Traced.fail (.expansion p .noResolver)
  | some r =>
    match ← lookUp r p with
    | none => Traced.fail (.expansion p .unknown)
    | some value =>
      Traced.note (.expanded p value)
      return value

/-- Replacements of placeholders. -/
abbrev Table := List (Placeholder × String)

/-- Adds the replacements of those placeholders of a list that have none yet. -/
def resolveAll (r : Option Resolver) (known : Table) : List Placeholder → Traced Table
  | [] => return known
  | p :: ps => do
    if (known.lookup p).isSome then resolveAll r known ps
    else
      let value ← resolve r p
      resolveAll r ((p, value) :: known) ps

def Piece.replace (table : Table) : Piece → List Char
  | .literal c => [c]
  | .placeholder p => ((table.lookup p).getD "").toList

def expand (r : Option Resolver) (text : String) : Traced String := do
  let table ← resolveAll r [] (all text)
  return String.ofList ((pieces text.toList).flatMap (Piece.replace table))

end Placeholder

end GuardTree
