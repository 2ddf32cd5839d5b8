import GuardTree.Decimal.Notation
import GuardTree.Text.Quoted
import GuardTree.Tree.Node

/-! # Writing trees as JSON

* `compact`: one line without blanks; messages and the short output show trees this way.
* `pretty`: one item or entry a line, two blanks deeper than its container, empty containers on one
  line.

Entries stand in the order of the mapping. A floating-point number that is no number is written as
`null`, since JSON has no other word for it.
-/

namespace GuardTree.Json

set_option autoImplicit false

/-- In JSON a number is written out from `1e-5` up to `1e16`, always with a point; otherwise it has
an exponent with a sign. -/
def number : Decimal.Notation where
  positional := some (-5, 16)
  pointZero := true
  plus := true
  tie := .even
  notANumber := "null"
  infinity := "null"
  negativeInfinity := "null"

def hexDigit (n : Nat) : Char := if n < 10 then Char.ofNat (48 + n) else Char.ofNat (87 + n)

/-- A character inside a string: quotes, backslashes and control characters are escaped. -/
def stringChar (c : Char) : List Char :=
  match c with
  | '"' => ['\\', '"']
  | '\\' => ['\\', '\\']
  | '\x08' => ['\\', 'b']
  | '\x0c' => ['\\', 'f']
  | '\n' => ['\\', 'n']
  | '\r' => ['\\', 'r']
  | '\t' => ['\\', 't']
  | c =>
    if c.toNat < 32 then ['\\', 'u', '0', '0', hexDigit (c.toNat / 16), hexDigit (c.toNat % 16)]
    else [c]

def string (s : String) : List Char := '"' :: s.toList.flatMap stringChar ++ ['"']

def scalar : Scalar → List Char
  | .null => "null".toList
  | .bool true => "true".toList
  | .bool false => "false".toList
  | .integer n => (toString n.toInt).toList
  | .float x => (number.write x).toList
  | .string s => string s

/-! ## On one line -/

mutual

def compactChars : Node → List Char
  | .scalar s => scalar s
  | .list [] => ['[', ']']
  | .list (item :: items) => '[' :: compactChars item ++ compactItems items ++ [']']
  | .mapping [] => ['\x7b', '\x7d']
  | .mapping ((key, value) :: entries) =>
    '\x7b' :: string key ++ ':' :: compactChars value ++ compactEntries entries ++ ['\x7d']

/-- The further items of a list, each after a comma. -/
def compactItems : List Node → List Char
  | [] => []
  | item :: items => ',' :: compactChars item ++ compactItems items

/-- The further entries of a mapping, each after a comma. -/
def compactEntries : List (String × Node) → List Char
  | [] => []
  | (key, value) :: entries =>
    ',' :: string key ++ ':' :: compactChars value ++ compactEntries entries

end

def compact (n : Node) : String := String.ofList (compactChars n)

/-! ## On many lines -/

/-- A line break and the blanks before a line `depth` containers deep. -/
def newLine (depth : Nat) : List Char := '\n' :: List.replicate (2 * depth) ' '

mutual

/-- A tree that starts `depth` containers deep. -/
def prettyChars (depth : Nat) : Node → List Char
  | .scalar s => scalar s
  | .list [] => ['[', ']']
  | .list (item :: items) =>
    '[' :: newLine (depth + 1) ++ prettyChars (depth + 1) item ++ prettyItems (depth + 1) items ++
      newLine depth ++ [']']
  | .mapping [] => ['\x7b', '\x7d']
  | .mapping ((key, value) :: entries) =>
    '\x7b' :: newLine (depth + 1) ++ string key ++ ':' :: ' ' :: prettyChars (depth + 1) value ++
      prettyEntries (depth + 1) entries ++ newLine depth ++ ['\x7d']

/-- The further items of a list, each after a comma and on a line of its own. -/
def prettyItems (depth : Nat) : List Node → List Char
  | [] => []
  | item :: items => ',' :: newLine depth ++ prettyChars depth item ++ prettyItems depth items

/-- The further entries of a mapping, each after a comma and on a line of its own. -/
def prettyEntries (depth : Nat) : List (String × Node) → List Char
  | [] => []
  | (key, value) :: entries =>
    ',' :: newLine depth ++ string key ++ ':' :: ' ' :: prettyChars depth value ++
      prettyEntries depth entries

end

def pretty (n : Node) : String := String.ofList (prettyChars 0 n)

end GuardTree.Json
