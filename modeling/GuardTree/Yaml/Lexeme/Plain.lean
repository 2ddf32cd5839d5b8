import GuardTree.Yaml.Lexeme.Separation

/-! # Plain scalars

A plain scalar goes on until a colon with a gap after it, a comment, a mark between documents or the
end of the text. In a flow collection a flow indicator ends it too; elsewhere a line that is not
indented far enough does.
-/

namespace GuardTree.Yaml

set_option autoImplicit false

namespace Plain

/-- Whether a plain scalar may start with the character `c` before the text `r`. -/
def canStart (flow : Bool) (c : Char) (r : List Char) : Bool :=
  if c == '-' then !atGap r
  else if c == '?' || c == ':' then !flow && !atGap r
  else !isGap c && !isReserved c

/-- The length of the word at the front of a text; nothing if a flow collection would have to start
or end right after a colon. -/
def word? (flow : Bool) : List Char → Option Nat
  | [] => some 0
  | c :: r =>
    if isGap c then some 0
    else if flow && c == ':' && r.head?.any (fun d => d == '?' || isFlowIndicator d) then none
    else if c == ':' && atGap r || flow && isFlowIndicator c then some 0
    else (word? flow r).map (· + 1)

structure Result where
  text : List Char
  /-- Whether line breaks follow it, so that a key may come next. -/
  broken : Bool
  next : Cursor

/-- Whether a plain scalar may not go on here, a separation having been read. -/
def endsAt (flow : Bool) (indent : Nat) (c : Cursor) : Bool :=
  !flow && decide (c.column < indent) || c.atDocumentMark || c.rest.head? == some '#'

/-- Goes on with a plain scalar by a word of `n` characters and what follows it; `parts` are the
parts before, the last one first. -/
def extend (flow : Bool) (indent : Nat) : Nat → List (List Char) → Nat → Cursor → Option Result
  | 0, _, _, _ => none
  | fuel + 1, parts, n, c => do
    let parts := c.rest.take n :: parts
    let (s, next) ← (c.advance n).separation indent
    let n ← if endsAt flow indent next then some 0 else word? flow next.rest
    if n = 0 then return ⟨parts.reverse.flatten, s.isBreaks, next⟩
    extend flow indent fuel (s.folded :: parts) n next

end Plain

/-- The plain scalar that starts here, if it has at most `fuel` words. -/
def Cursor.plain? (c : Cursor) (flow : Bool) (indent fuel : Nat) : Option Plain.Result := do
  let n ← Plain.word? flow c.rest
  Plain.extend flow indent fuel [] n c

end GuardTree.Yaml
