import GuardTree.Yaml.Cursor

/-! # Block scalars

A header, `|` or `>` with indicators after it, is followed by the lines of the scalar. They are
indented by a given number of columns, else as far as the first line that is not empty; what is
indented further keeps the rest of its blanks. In a literal scalar line breaks count as they stand.
In a folded one a single line break between two lines that start with no blank counts as a space.
The chomping indicator says what becomes of the line breaks at the end.
-/

namespace GuardTree.Yaml

set_option autoImplicit false

/-- What becomes of the line breaks at the end of a block scalar. -/
inductive Chomping
  /-- The first of them counts. -/
  | clip
  /-- None of them counts. -/
  | strip
  /-- All of them count. -/
  | keep
deriving DecidableEq

namespace Block

structure Header where
  chomping : Chomping
  /-- By how many columns the lines are indented, if that is said. -/
  indentation : Option Nat

/-- The chomping indicator at the front of a text, and its length. -/
def chomping? : List Char → Option Chomping
  | '+' :: _ => some .keep
  | '-' :: _ => some .strip
  | _ => none

/-- The indentation indicator at the front of a text, which is no zero. -/
def indentation? : List Char → Option (Option Nat)
  | c :: _ => if c == '0' then none else some (if c.isDigit then some (c.toNat - 48) else none)
  | [] => some none

/-- The indicators here, in either order. -/
def header? (c : Cursor) : Option (Header × Cursor) :=
  match chomping? c.rest with
  | some chomping => do
    let c := c.advance 1
    match ← indentation? c.rest with
    | some n => return (⟨chomping, some n⟩, c.advance 1)
    | none => return (⟨chomping, none⟩, c)
  | none => do
    match ← indentation? c.rest with
    | none => return (⟨.clip, none⟩, c)
    | some n =>
      let c := c.advance 1
      match chomping? c.rest with
      | some chomping => return (⟨chomping, some n⟩, c.advance 1)
      | none => return (⟨.clip, some n⟩, c)

/-- Empty lines that have been passed. -/
structure Gap where
  /-- The largest column that was reached. -/
  reach : Nat
  breaks : List Char
  next : Cursor

/-- Passes empty lines and the indentation of the line after them, which is all of its spaces if the
indentation is not known (`none`). No tab may stand in place of a space. -/
def gap? (indent : Option Nat) (reach : Nat) (breaks : List Char) (m : Mark) :
    List Char → Option Gap
  | [] => some ⟨max reach m.column, breaks, ⟨[], m⟩⟩
  | '\r' :: '\n' :: r => gap? indent (max reach m.column) (breaks ++ ['\n']) (m.down ['\r', '\n']) r
  | c :: r =>
    let inside := indent.all (m.column < ·)
    if inside && c == ' ' then gap? indent reach breaks (m.past [c]) r
    else if inside && c == '\t' then none
    else if c == '\u2028' || c == '\u2029' then
      gap? indent (max reach m.column) (breaks ++ [c]) (m.down [c]) r
    else if isBreak c then gap? indent (max reach m.column) (breaks ++ ['\n']) (m.down [c]) r
    else some ⟨max reach m.column, breaks, ⟨c :: r, m⟩⟩

/-- A block scalar as far as it has been read. -/
structure Progress where
  /-- The lines and what is between them, the last one first. -/
  parts : List (List Char)
  /-- The line break after the last line. -/
  last : List Char
  /-- The line breaks of the empty lines after that. -/
  others : List Char
  /-- Whether the last line started with a blank. -/
  indented : Bool
  next : Cursor

/-- What the line breaks before the next line count as. -/
def Progress.joint (p : Progress) (literal indented : Bool) : List Char :=
  if !literal && p.last == ['\n'] && !p.indented && !indented then
    if p.others.isEmpty then [' '] else p.others
  else p.last ++ p.others

/-- Reads the lines that are indented by `indent` columns. -/
def lines (literal : Bool) (indent : Nat) : Nat → Progress → Option Progress
  | 0, _ => none
  | fuel + 1, p =>
    if p.next.column ≠ indent || p.next.rest.isEmpty then some p
    else do
      let indented := p.next.rest.head?.any isBlank
      let line := p.next.rest.takeWhile fun c => !isBreak c
      let (last, c) := (p.next.advance line.length).takeBreak
      let g ← gap? (some indent) 0 [] c.mark c.rest
      lines literal indent fuel
        ⟨line :: p.joint literal indented :: p.parts, last, g.breaks, indented, g.next⟩

/-- The text of a block scalar whose lines have been read. -/
def Progress.chomped (p : Progress) (chomping : Chomping) : List Char :=
  p.parts.reverse.flatten ++ match chomping with
    | .strip => []
    | .clip => p.last
    | .keep => p.last ++ p.others

end Block

/-- The block scalar whose first indicator stands here, if it has fewer than `fuel` lines. `least` is
the first column beyond the enclosing block collection. -/
def Cursor.block? (c : Cursor) (literal : Bool) (least fuel : Nat) : Option (List Char × Cursor) := do
  let (header, c) ← Block.header? (c.advance 1)
  let c := c.skipBlanks.skipComment
  if !c.rest.isEmpty && !c.rest.head?.any isBreak then none
  let (_, c) := c.takeBreak
  let given := header.indentation.map (least - 1 + ·)
  let g ← Block.gap? given 0 [] c.mark c.rest
  let indent := given.getD (max g.reach (max least 1))
  let p ← Block.lines literal indent fuel ⟨[], [], g.breaks, false, g.next⟩
  return (p.chomped header.chomping, p.next)

end GuardTree.Yaml
