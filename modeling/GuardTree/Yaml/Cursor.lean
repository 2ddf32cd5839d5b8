import GuardTree.Text.Size
import GuardTree.Yaml.Character

/-! # Places in a text

A `Cursor` is the rest of a text together with the place where the rest starts. Indentation needs
the column, which counts characters, and the size of a key needs the offset, which counts bytes. A
carriage return and a line feed after it are one line break.
-/

namespace GuardTree.Yaml

set_option autoImplicit false

structure Mark where
  /-- The number of bytes before it. -/
  offset : Nat
  line : Nat
  /-- The number of characters before it on its line. -/
  column : Nat
deriving DecidableEq

namespace Mark

def origin : Mark := ⟨0, 0, 0⟩

def past (m : Mark) (cs : List Char) : Mark :=
  ⟨m.offset + Text.utf8Length cs, m.line, m.column + cs.length⟩

/-- The start of the next line, after the characters of a line break. -/
def down (m : Mark) (cs : List Char) : Mark := ⟨m.offset + Text.utf8Length cs, m.line + 1, 0⟩

end Mark

/-- A rest of a text and the place where it starts. -/
structure Cursor where
  rest : List Char
  mark : Mark

namespace Cursor

def column (c : Cursor) : Nat := c.mark.column

/-- Moves over `n` characters of a line. -/
def advance (c : Cursor) (n : Nat) : Cursor := ⟨c.rest.drop n, c.mark.past (c.rest.take n)⟩

/-- Moves over the characters of a line that satisfy `p`. -/
def skipWhile (c : Cursor) (p : Char → Bool) : Cursor := c.advance (c.rest.takeWhile p).length

def skipBlanks (c : Cursor) : Cursor := c.skipWhile isBlank

/-- Moves over a comment, if one starts here. -/
def skipComment (c : Cursor) : Cursor :=
  match c.rest with
  | '#' :: _ => c.skipWhile fun d => !isBreak d
  | _ => c

/-- Moves over a line break, if there is one, and gives the character that it counts as. -/
def takeBreak (c : Cursor) : List Char × Cursor :=
  match c.rest with
  | '\r' :: '\n' :: r => (['\n'], ⟨r, c.mark.down ['\r', '\n']⟩)
  | d :: r =>
    if d == '\u2028' || d == '\u2029' then ([d], ⟨r, c.mark.down [d]⟩)
    else if isBreak d then (['\n'], ⟨r, c.mark.down [d]⟩)
    else ([], c)
  | [] => ([], c)

/-- Whether a line starts here with one of the marks that stand between documents. -/
def atDocumentMark (c : Cursor) : Bool :=
  c.column == 0 && match c.rest with
    | '-' :: '-' :: '-' :: r => atGap r
    | '.' :: '.' :: '.' :: r => atGap r
    | _ => false

end Cursor

end GuardTree.Yaml
