import GuardTree.Yaml.Lexeme.Block
import GuardTree.Yaml.Lexeme.Directive
import GuardTree.Yaml.Lexeme.Plain
import GuardTree.Yaml.Lexeme.Property
import GuardTree.Yaml.Lexeme.Quoted
import GuardTree.Yaml.Token

/-! # From indentation to tokens

A text is cut into tokens from the left. Outside flow collections a column to the right of those of
the open block collections opens one, and a column to the left closes some.

A key without `?` is known only by the colon after it. Until then it is an implicit key, which may
come true: the tokens that open its mapping and announce it are put in before it. It has to be on
one line and take at most `maxKeySize` bytes. A key that stands where only a key can stand is
required to come true.

* `Layout`: the state between two tokens.
* `tokens?`: the tokens of a text.
-/

namespace GuardTree.Yaml

set_option autoImplicit false

/-- The greatest distance in bytes from the start of an implicit key to its colon. -/
def maxKeySize : Nat := 1024

/-- What may become a key without `?`. -/
structure ImplicitKey where
  /-- The number of tokens before it. -/
  place : Nat
  mark : Mark
  required : Bool

/-- A text of which a beginning has been cut into tokens. -/
structure Layout where
  cursor : Cursor
  /-- The tokens so far, the last one first. -/
  tokens : List Token
  /-- The number of tokens so far. -/
  count : Nat
  /-- The columns of the open block collections, the innermost first. -/
  blocks : List Nat
  /-- Whether a key or an entry of a block collection may start here. -/
  keyAllowed : Bool
  /-- The implicit key of the innermost flow collection, or outside of all. -/
  key : Option ImplicitKey
  /-- The implicit keys around each open flow collection, the innermost first. -/
  outer : List (Option ImplicitKey)

namespace Layout

def start (text : List Char) : Layout :=
  { cursor := ⟨text, .origin⟩, tokens := [], count := 0, blocks := [], keyAllowed := true,
    key := none, outer := [] }

def inFlow (s : Layout) : Bool := !s.outer.isEmpty

def column (s : Layout) : Nat := s.cursor.column

def leastIndent (s : Layout) : Nat := s.blocks.head?.elim 0 (· + 1)

def emit (s : Layout) (t : Token) : Layout :=
  { s with tokens := t :: s.tokens, count := s.count + 1 }

/-- Puts a token in before those from a place on. -/
def emitAt (s : Layout) (place : Nat) (t : Token) : Layout :=
  let later := s.count - place
  { s with tokens := s.tokens.take later ++ t :: s.tokens.drop later, count := s.count + 1 }

def moveTo (s : Layout) (c : Cursor) : Layout := { s with cursor := c }

/-! ## Between tokens -/

/-- Passes blanks, comments and line breaks. A tab is passed where no key may start. Outside flow
collections a key may start on a new line. A byte order mark may open any line, which takes up a
column. -/
def skipGap (flow keyAllowed comment : Bool) (m : Mark) : List Char → Bool × Cursor
  | [] => (keyAllowed, ⟨[], m⟩)
  | '\r' :: '\n' :: r => skipGap flow (keyAllowed || !flow) false (m.down ['\r', '\n']) r
  | c :: r =>
    if isBreak c then skipGap flow (keyAllowed || !flow) false (m.down [c]) r
    else if comment then skipGap flow keyAllowed true (m.past [c]) r
    else if c == byteOrderMark && m.column == 0 then
      skipGap flow keyAllowed false (m.past [c]) r
    else if c == ' ' || c == '\t' && (flow || !keyAllowed) then
      skipGap flow keyAllowed false (m.past [c]) r
    else if c == '#' then skipGap flow keyAllowed true (m.past [c]) r
    else (keyAllowed, ⟨c :: r, m⟩)

/-- Gives up an implicit key that can come true no more; a required one must not be given up. -/
def current? (here : Mark) : Option ImplicitKey → Option (Option ImplicitKey)
  | none => some none
  | some k =>
    if k.mark.line < here.line || k.mark.offset + maxKeySize < here.offset then
      if k.required then none else some none
    else some (some k)

/-- Closes the block collections whose column satisfies `p`, from the innermost on. -/
def closeBlocks (s : Layout) (p : Nat → Bool) : Layout :=
  if s.inFlow then s
  else
    let closed := s.blocks.takeWhile p
    { s with
      tokens := List.replicate closed.length Token.blockEnd ++ s.tokens
      count := s.count + closed.length
      blocks := s.blocks.drop closed.length }

def settle? (s : Layout) : Option Layout := do
  let (keyAllowed, c) := skipGap s.inFlow s.keyAllowed false s.cursor.mark s.cursor.rest
  let key ← current? c.mark s.key
  let outer ← s.outer.mapM (current? c.mark)
  return { s with cursor := c, keyAllowed, key, outer }.closeBlocks (c.column < ·)

/-! ## Block collections and implicit keys -/

/-- Opens a block collection at a column, unless one is open there or further right; the token goes
before those from a place on. -/
def openBlock (s : Layout) (column place : Nat) (t : Token) : Layout :=
  if s.inFlow || s.blocks.head?.any (column ≤ ·) then s
  else { s.emitAt place t with blocks := column :: s.blocks }

def openBlockHere (s : Layout) (t : Token) : Layout :=
  s.openBlock s.column s.count t

def dropKey? (s : Layout) : Option Layout :=
  if s.key.any (·.required) then none else some { s with key := none }

/-- Takes what starts here for an implicit key, if one may start here. -/
def markKey? (s : Layout) : Option Layout :=
  if s.keyAllowed then do
    let s ← s.dropKey?
    let required := !s.inFlow && s.blocks.head? == some s.column
    return { s with key := some ⟨s.count, s.cursor.mark, required⟩ }
  else some s

/-! ## Tokens -/

/-- Takes an indicator of `n` characters; whether a key may follow is given. -/
def indicator (s : Layout) (t : Token) (n : Nat) (keyAllowed : Bool) : Layout :=
  { (s.emit t).moveTo (s.cursor.advance n) with keyAllowed }

def documentMark? (s : Layout) (t : Token) : Option Layout := do
  let s ← (s.closeBlocks fun _ => true).dropKey?
  return s.indicator t 3 false

def directive? (s : Layout) : Option Layout := do
  let s ← (s.closeBlocks fun _ => true).dropKey?
  let (t, c) ← s.cursor.directive?
  return { (s.emit t).moveTo c with keyAllowed := false }

/-- The start of a flow collection, which may be a key itself. -/
def flowStart? (s : Layout) (t : Token) : Option Layout := do
  let s ← s.markKey?
  return { s with outer := s.key :: s.outer, key := none }.indicator t 1 true

def flowEnd? (s : Layout) (t : Token) : Option Layout := do
  let s ← s.dropKey?
  let s := match s.outer with
    | key :: outer => { s with key, outer }
    | [] => s
  return s.indicator t 1 false

def flowEntry? (s : Layout) : Option Layout := do
  return (← s.dropKey?).indicator .flowEntry 1 true

/-- What may stand only where a key may, outside flow collections: opens a block collection. -/
def enterBlock? (s : Layout) (t : Token) : Option Layout :=
  if s.inFlow then some s else if s.keyAllowed then some (s.openBlockHere t) else none

def blockEntry? (s : Layout) : Option Layout := do
  let s ← (← s.enterBlock? .blockSequenceStart).dropKey?
  return s.indicator .blockEntry 1 true

def key? (s : Layout) : Option Layout := do
  let s ← (← s.enterBlock? .blockMappingStart).dropKey?
  return s.indicator .key 1 (!s.inFlow)

/-- A colon makes the implicit key come true, if there is one. -/
def value? (s : Layout) : Option Layout := do
  match s.key with
  | some k =>
    let s := (s.emitAt k.place .key).openBlock k.mark.column k.place .blockMappingStart
    return { s with key := none }.indicator .value 1 false
  | none =>
    let s ← s.enterBlock? .blockMappingStart
    return s.indicator .value 1 (!s.inFlow)

/-- A token that a node may start with, cut off at the front of the text by `cut?`. -/
def nodeToken? (s : Layout) (cut? : Cursor → Option (Token × Cursor)) : Option Layout := do
  let s ← s.markKey?
  let (t, c) ← cut? s.cursor
  return { (s.emit t).moveTo c with keyAllowed := false }

def quoted? (s : Layout) (fuel : Nat) (double : Bool) : Option Layout :=
  s.nodeToken? fun c =>
    (c.quoted? double fuel).map fun (cs, c) => (.scalar (String.ofList cs) false, c)

def block? (s : Layout) (fuel : Nat) (literal : Bool) : Option Layout := do
  let s ← s.dropKey?
  let (cs, c) ← s.cursor.block? literal s.leastIndent fuel
  return { (s.emit (.scalar (String.ofList cs) false)).moveTo c with keyAllowed := true }

def plain? (s : Layout) (fuel : Nat) : Option Layout := do
  let s ← s.markKey?
  let r ← s.cursor.plain? s.inFlow s.leastIndent fuel
  return { (s.emit (.scalar (String.ofList r.text) true)).moveTo r.next with keyAllowed := r.broken }

/-- The token that starts here with the character `c` before the text `r`; `fuel` bounds the parts of
a scalar. -/
def token? (s : Layout) (fuel : Nat) (c : Char) (r : List Char) : Option Layout :=
  let flow := s.inFlow
  if s.column == 0 && c == '%' then s.directive?
  else if s.cursor.atDocumentMark then
    s.documentMark? (if c == '-' then .documentStart else .documentEnd)
  else if c == '[' then s.flowStart? .flowSequenceStart
  else if c == '\x7b' then s.flowStart? .flowMappingStart
  else if c == ']' then s.flowEnd? .flowSequenceEnd
  else if c == '\x7d' then s.flowEnd? .flowMappingEnd
  else if c == ',' then s.flowEntry?
  else if c == '-' && atGap r then s.blockEntry?
  else if c == '?' && (flow || atGap r) then s.key?
  else if c == ':' && (flow || atGap r) then s.value?
  else if c == '*' then s.nodeToken? fun c => c.anchor?.map fun (name, c) => (.alias name, c)
  else if c == '&' then s.nodeToken? fun c => c.anchor?.map fun (name, c) => (.anchor name, c)
  else if c == '!' then
    s.nodeToken? fun c => (c.tag? flow).map fun ((handle, suffix), c) => (.tag handle suffix, c)
  else if c == '|' && !flow then s.block? fuel true
  else if c == '>' && !flow then s.block? fuel false
  else if c == '\x27' then s.quoted? fuel false
  else if c == '"' then s.quoted? fuel true
  else if Plain.canStart flow c r then s.plain? fuel
  else none

/-- The tokens of the whole text, in order. The fuel is to exceed the length of the text that is
left, which every token makes shorter. -/
def run : Nat → Layout → Option (List Token)
  | 0, _ => none
  | fuel + 1, s => do
    let s ← s.settle?
    match s.cursor.rest with
    | [] => do
      let s ← (s.closeBlocks fun _ => true).dropKey?
      return s.tokens.reverse
    | c :: r => run fuel (← s.token? (fuel + 1) c r)

end Layout

def tokens? (text : List Char) : Option (List Token) :=
  if text.all isAllowed then (Layout.start text).run (text.length + 2) else none

end GuardTree.Yaml
