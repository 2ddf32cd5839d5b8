import GuardTree.Decimal.Notation
import GuardTree.Yaml.Style

/-! # Writing YAML

Collections are written in block style, empty ones as `[]` and `{}`. An item or an entry starts
where its collection is indented to, and what is in it is indented two columns further; but a
sequence that is the value of a key is indented no further than the key.

Everything that is written ends with a line break, which is the last one of the scalar itself where
that is a literal block that ends with one.
-/

namespace GuardTree.Yaml

set_option autoImplicit false

/-- Floating-point numbers: no exponent from `1e-5` up to `1e16`. -/
def number : Decimal.Notation where
  positional := some (-5, 16)
  pointZero := true
  plus := false
  tie := .even
  notANumber := ".nan"
  infinity := ".inf"
  negativeInfinity := "-.inf"

/-- `n` spaces. -/
def pad (n : Nat) : List Char := List.replicate n ' '

/-! ## Texts -/

def hexDigit (n : Nat) : Char := if n < 10 then Char.ofNat (48 + n) else Char.ofNat (55 + n)

/-- The last `count` digits of a number in base sixteen. -/
def hexDigits (n : Nat) : Nat → List Char
  | 0 => []
  | count + 1 => hexDigit (n / Nat.pow 16 count % 16) :: hexDigits n count

/-- An escape between double quotes, backslash included. -/
def escape (c : Char) : List Char :=
  match c with
  | '\x00' => ['\\', '0']
  | '\x07' => ['\\', 'a']
  | '\x08' => ['\\', 'b']
  | '\t' => ['\\', 't']
  | '\n' => ['\\', 'n']
  | '\x0b' => ['\\', 'v']
  | '\x0c' => ['\\', 'f']
  | '\r' => ['\\', 'r']
  | '\x1b' => ['\\', 'e']
  | '"' => ['\\', '"']
  | '\\' => ['\\', '\\']
  | '\x85' => ['\\', 'N']
  | '\u2028' => ['\\', 'L']
  | '\u2029' => ['\\', 'P']
  | c =>
    if c.toNat < 0x100 then '\\' :: 'x' :: hexDigits c.toNat 2
    else if c.toNat < 0x10000 then '\\' :: 'u' :: hexDigits c.toNat 4
    else '\\' :: 'U' :: hexDigits c.toNat 8

def doubleQuotedChar (c : Char) : List Char :=
  if !isPrintable c || isBreak c || c == '"' || c == '\\' then escape c else [c]

/-- The characters between single quotes, indented after line breaks; `fresh` says that a line has
just begun. -/
def singleQuotedChars (indent : Nat) : (fresh : Bool) → List Char → List Char
  | fresh, [] => if fresh then pad indent else []
  | fresh, c :: r =>
    if isBreak c then c :: singleQuotedChars indent true r
    else
      (if fresh then pad indent else []) ++ (if c == '\x27' then ['\x27', '\x27'] else [c]) ++
        singleQuotedChars indent false r

/-- The lines of a literal block, empty ones not indented; `fresh` says that a line has just
begun. -/
def literalChars (indent : Nat) : (fresh : Bool) → List Char → List Char
  | _, [] => []
  | fresh, c :: r =>
    if isBreak c then c :: literalChars indent true r
    else (if fresh then pad indent else []) ++ c :: literalChars indent false r

/-- The indicators of a literal block: the indentation if the first line does not show it, and how
many of the line breaks at the end count if it is not just one. -/
def literalHeader (cs : List Char) : List Char :=
  let indentation := if cs.head?.any (fun c => c == ' ' || isBreak c) then ['2'] else []
  let chomping := match cs.reverse with
    | c :: d :: _ => if !isBreak c then ['-'] else if isBreak d then ['+'] else []
    | [c] => if isBreak c then ['+'] else ['-']
    | [] => ['-']
  '|' :: indentation ++ chomping

/-- A text in its style; further lines are indented by `indent`. -/
def text (indent : Nat) (s : String) : List Char :=
  let cs := s.toList
  match styleOf s with
  | .plain => cs ++ ['\n']
  | .singleQuoted => '\x27' :: singleQuotedChars indent false cs ++ ['\x27', '\n']
  | .doubleQuoted => '"' :: cs.flatMap doubleQuotedChar ++ ['"', '\n']
  | .literal =>
    literalHeader cs ++ '\n' :: literalChars indent true cs ++
      if cs.getLast?.any isBreak then [] else ['\n']

/-- A leaf; further lines are indented by `indent`. -/
def leaf (indent : Nat) : Scalar → List Char
  | .null => "null\n".toList
  | .bool true => "true\n".toList
  | .bool false => "false\n".toList
  | .integer n => (toString n.toInt).toList ++ ['\n']
  | .float x => (number.write x).toList ++ ['\n']
  | .string s => text indent s

/-- A key up to the place of its value. A key without `?` is a single line, whose line break makes
way for the colon. -/
def key (indent : Nat) (k : String) : List Char :=
  if isSimpleKey k then (text indent k).dropLast ++ [':']
  else '?' :: ' ' :: text (indent + 2) k ++ pad indent ++ [':']

/-! ## Trees -/

mutual

/-- A tree that starts in the column `indent`. -/
def block (indent : Nat) : Node → List Char
  | .scalar s => leaf indent s
  | .list [] => "[]\n".toList
  | .list (item :: items) => '-' :: ' ' :: block (indent + 2) item ++ blockItems indent items
  | .mapping [] => "\x7b\x7d\n".toList
  | .mapping ((k, v) :: entries) => key indent k ++ blockValue indent (isSimpleKey k) v ++
      blockEntries indent entries

def blockItems (indent : Nat) : List Node → List Char
  | [] => []
  | item :: items =>
    pad indent ++ '-' :: ' ' :: block (indent + 2) item ++ blockItems indent items

def blockEntries (indent : Nat) : List (String × Node) → List Char
  | [] => []
  | (k, v) :: entries =>
    pad indent ++ key indent k ++ blockValue indent (isSimpleKey k) v ++ blockEntries indent entries

/-- The value after a key and its colon, `indent` being the column of the key. -/
def blockValue (indent : Nat) (simpleKey : Bool) : Node → List Char
  | .list (item :: items) =>
    if simpleKey then
      '\n' :: pad indent ++ '-' :: ' ' :: block (indent + 2) item ++ blockItems indent items
    else ' ' :: '-' :: ' ' :: block (indent + 4) item ++ blockItems (indent + 2) items
  | .mapping ((k, v) :: entries) =>
    (if simpleKey then '\n' :: pad (indent + 2) else [' ']) ++ key (indent + 2) k ++
      blockValue (indent + 2) (isSimpleKey k) v ++ blockEntries (indent + 2) entries
  | v => ' ' :: block (indent + 2) v

end

def write : Node → String
  | .scalar s => String.ofList (leaf 2 s)
  | n => String.ofList (block 0 n)

end GuardTree.Yaml
