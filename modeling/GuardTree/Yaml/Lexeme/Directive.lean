import GuardTree.Decimal.Reader
import GuardTree.Yaml.Lexeme.Property
import GuardTree.Yaml.Token

/-! # Directives

A line that starts with `%` states the version of YAML or declares a tag handle.
-/

namespace GuardTree.Yaml

set_option autoImplicit false

namespace Directive

def number? (c : Cursor) : Option (Nat × Cursor) :=
  let digits := c.rest.takeWhile Char.isDigit
  if digits.isEmpty || 9 < digits.length then none
  else some (Decimal.natOfDigits digits, c.advance digits.length)

def version? (c : Cursor) : Option (Token × Cursor) := do
  let (major, c) ← number? c.skipBlanks
  if c.rest.head? != some '.' then none
  let (minor, c) ← number? (c.advance 1)
  return (.version major minor, c)

/-- The handle and its meaning after the name of their directive. -/
def handle? (c : Cursor) : Option (Token × Cursor) := do
  let c := c.skipBlanks
  if c.rest.head? != some '!' then none
  let handle := tagHandle c.rest
  if !isClosedHandle handle && handle != ['!'] then none
  let c := c.advance handle.length
  if !c.rest.head?.any isBlank then none
  let c := c.skipBlanks
  let (octets, n) ← tagOctets? true 0 c.rest
  let c := c.advance n
  if n = 0 || !atGap c.rest then none
  return (.handle (String.ofList handle) octets, c)

end Directive

/-- The directive whose `%` stands here, up to the end of its line. -/
def Cursor.directive? (c : Cursor) : Option (Token × Cursor) := do
  let c := c.advance 1
  let name := c.rest.takeWhile isNamePart
  let c := c.advance name.length
  if !atGap c.rest then none
  let (token, c) ← match String.ofList name with
    | "YAML" => Directive.version? c
    | "TAG" => Directive.handle? c
    | _ => none
  let c := c.skipBlanks.skipComment
  if !c.rest.isEmpty && !c.rest.head?.any isBreak then none
  return (token, c.takeBreak.2)

end GuardTree.Yaml
