import GuardTree.Yaml.Cursor

/-! # What separates the words of a scalar

Plain and quoted scalars may go on over several lines. Blanks within a line count as they stand. A
single line break counts as a space and of several all but the first count; blanks around line
breaks count for nothing. The two line breaks of Unicode's own are never dropped.
-/

namespace GuardTree.Yaml

set_option autoImplicit false

inductive Separation
  | blanks (cs : List Char)
  /-- Line breaks: the first one, unless it is escaped, and those after it. -/
  | breaks (first : List Char) (others : List Char)

namespace Separation

def nothing : Separation := .blanks []

def isBreaks : Separation → Bool
  | .blanks _ => false
  | .breaks _ _ => true

def folded : Separation → List Char
  | .blanks cs => cs
  | .breaks ['\n'] [] => [' ']
  | .breaks ['\n'] others => others
  | .breaks first others => first ++ others

def addBlank (c : Char) : Separation → Separation
  | .blanks cs => .blanks (cs ++ [c])
  | s => s

def addBreak (c : Char) : Separation → Separation
  | .blanks _ => .breaks [c] []
  | .breaks first others => .breaks first (others ++ [c])

/-- Goes on with a separation as far as it reaches. After a line break no tab may stand in a column
below `indent`. -/
def extend (indent : Nat) (s : Separation) (m : Mark) : List Char → Option (Separation × Cursor)
  | [] => some (s, ⟨[], m⟩)
  | '\r' :: '\n' :: r => extend indent (s.addBreak '\n') (m.down ['\r', '\n']) r
  | c :: r =>
    if isBlank c then
      if s.isBreaks && c == '\t' && decide (m.column < indent) then none
      else extend indent (s.addBlank c) (m.past [c]) r
    else if c == '\u2028' || c == '\u2029' then extend indent (s.addBreak c) (m.down [c]) r
    else if isBreak c then extend indent (s.addBreak '\n') (m.down [c]) r
    else some (s, ⟨c :: r, m⟩)

end Separation

/-- The separation that starts here, and where it ends. -/
def Cursor.separation (c : Cursor) (indent : Nat) : Option (Separation × Cursor) :=
  Separation.nothing.extend indent c.mark c.rest

end GuardTree.Yaml
