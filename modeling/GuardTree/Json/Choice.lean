import GuardTree.Json.Reader

/-! # Choices in JSON

One of several names is chosen by a string, or by an object whose only key is the name and whose
value is `null`.
-/

namespace GuardTree.Json

set_option autoImplicit false

/-- The name at the front of a text, and what follows it. -/
def choiceFront? (cs : List Char) : Option (String × List Char) :=
  match skipBlanks cs with
  | '"' :: r => (stringBody? r).map fun (name, rest) => (String.ofList name, rest)
  | '\x7b' :: r =>
    match pairs maxNesting r with
    | some ⟨([(name, .scalar .null)], rest), _⟩ => some (name, rest)
    | _ => none
  | _ => none

def choice? (text : String) : Option String :=
  match choiceFront? text.toList with
  | some (name, rest) => if (skipBlanks rest).isEmpty then some name else none
  | none => none

end GuardTree.Json
