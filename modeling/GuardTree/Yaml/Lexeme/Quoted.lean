import GuardTree.Text.Hex
import GuardTree.Yaml.Lexeme.Separation

/-! # Quoted scalars

Between single quotes a quote is written twice and nothing else is special. Between double quotes a
backslash starts an escape: of a character, or of a line break, which then counts for nothing.
-/

namespace GuardTree.Yaml

set_option autoImplicit false

namespace Quoted

/-- The characters that an escape of one letter stands for. -/
def letter? : Char → Option Char
  | '0' => some '\x00'
  | 'a' => some '\x07'
  | 'b' => some '\x08'
  | 't' => some '\t'
  | '\t' => some '\t'
  | 'n' => some '\n'
  | 'v' => some '\x0b'
  | 'f' => some '\x0c'
  | 'r' => some '\r'
  | 'e' => some '\x1b'
  | ' ' => some ' '
  | '"' => some '"'
  | '/' => some '/'
  | '\\' => some '\\'
  | 'N' => some '\x85'
  | '_' => some '\xa0'
  | 'L' => some '\u2028'
  | 'P' => some '\u2029'
  | _ => none

/-- The number of digits after a letter that starts the code of a character. -/
def codeLength? : Char → Option Nat
  | 'x' => some 2
  | 'u' => some 4
  | 'U' => some 8
  | _ => none

/-- The character of an escape whose backslash has been taken, and the length of what follows the
backslash. -/
def escape? : List Char → Option (Char × Nat)
  | [] => none
  | c :: r =>
    match codeLength? c with
    | none => (letter? c).map (·, 1)
    | some n => do
      let digits := r.take n
      let code ← if digits.length = n then Text.hexNumber? digits else none
      if h : code.isValidChar then return (Char.ofNatAux code h, n + 1) else none

/-- The word at the front of a text between single quotes, and its length. -/
def singleWord : List Char → List Char × Nat
  | [] => ([], 0)
  | '\'' :: '\'' :: r =>
    let (cs, n) := singleWord r
    ('\'' :: cs, n + 2)
  | c :: r =>
    if isGap c || c == '\'' then ([], 0)
    else
      let (cs, n) := singleWord r
      (c :: cs, n + 1)

/-- The word at the front of a text between double quotes, and its length, after `taken` characters
that belong to an escape. It ends before an escaped line break. -/
def doubleWord? : Nat → List Char → Option (List Char × Nat)
  | _, [] => some ([], 0)
  | taken + 1, _ :: r => (doubleWord? taken r).map fun (cs, n) => (cs, n + 1)
  | 0, c :: r =>
    if isGap c || c == '"' then some ([], 0)
    else if c == '\\' then
      if r.head?.any isBreak then some ([], 0)
      else match escape? r with
        | none => none
        | some (e, taken) => (doubleWord? taken r).map fun (cs, n) => (e :: cs, n + 1)
    else (doubleWord? 0 r).map fun (cs, n) => (c :: cs, n + 1)

/-- The word at the front of a text between quotes of a kind, and its length. -/
def word? (double : Bool) (cs : List Char) : Option (List Char × Nat) :=
  if double then doubleWord? 0 cs else some (singleWord cs)

/-- Goes on with a quoted scalar up to its closing quote; `parts` are the parts before, the last one
first. -/
def extend (double : Bool) : Nat → List (List Char) → Cursor → Option (List Char × Cursor)
  | 0, _, _ => none
  | fuel + 1, parts, c => do
    if c.atDocumentMark then none
    let (cs, n) ← word? double c.rest
    let parts := cs :: parts
    let c := c.advance n
    match c.rest with
    | [] => none
    | '\\' :: _ =>
      let (_, c) := (c.advance 1).takeBreak
      let (s, c) ← (Separation.breaks [] []).extend 0 c.mark c.rest
      extend double fuel (s.folded :: parts) c
    | d :: _ =>
      if isGap d then
        let (s, c) ← c.separation 0
        extend double fuel (s.folded :: parts) c
      else return (parts.reverse.flatten, c.advance 1)

end Quoted

/-- The quoted scalar whose opening quote stands here, if it has at most `fuel` words. -/
def Cursor.quoted? (c : Cursor) (double : Bool) (fuel : Nat) : Option (List Char × Cursor) :=
  Quoted.extend double fuel [] (c.advance 1)

end GuardTree.Yaml
