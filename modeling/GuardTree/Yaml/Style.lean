import GuardTree.Text.Size
import GuardTree.Yaml.Schema

/-! # Styles of written scalars

A text of several lines is written as a literal block, one that would be read as something else
between single quotes, and any other plain. Where the characters of a text do not admit that style,
a stronger one takes its place; double quotes admit everything.
-/

namespace GuardTree.Yaml

set_option autoImplicit false

inductive Style
  | plain
  | singleQuoted
  | doubleQuoted
  | literal
deriving DecidableEq

/-! ## What the styles admit -/

def hasBreak (cs : List Char) : Bool := cs.any isBreak

def hasSpecial (cs : List Char) : Bool := !cs.all isPrintable

/-- Whether two characters stand side by side that satisfy `p` and `q`. -/
def hasPair (p q : Char → Bool) : List Char → Bool
  | c :: d :: r => p c && q d || hasPair p q (d :: r)
  | _ => false

/-- Whether a line ends with a space and another one follows. -/
def hasSpaceBeforeBreak (cs : List Char) : Bool := hasPair (· == ' ') isBreak cs

/-- Whether a line other than the first starts with a space. -/
def hasSpaceAfterBreak (cs : List Char) : Bool := hasPair isBreak (· == ' ') cs

def startsWithSpace (cs : List Char) : Bool := cs.head?.any (· == ' ')

def endsWithSpace (cs : List Char) : Bool := cs.getLast?.any (· == ' ')

/-- Whether a text starts as a comment, an indicator or a mark between documents does. -/
def startsAsIndicator (cs : List Char) : Bool :=
  "---".toList.isPrefixOf cs || "...".toList.isPrefixOf cs || match cs with
    | [] => false
    | c :: r => isReserved c || (c == '-' || c == '?' || c == ':') && atGap r

/-- Whether a colon with a gap after it stands in a text, or a comment starts in it. -/
def breaksOff : List Char → Bool
  | [] => false
  | c :: r => c == ':' && atGap r || isGap c && r.head?.any (· == '#') || breaksOff r

def admitsPlain (cs : List Char) : Bool :=
  !(startsWithSpace cs || endsWithSpace cs || hasBreak cs || hasSpecial cs || startsAsIndicator cs ||
    breaksOff cs)

def admitsSingleQuoted (cs : List Char) : Bool :=
  !(hasSpaceAfterBreak cs || hasSpaceBeforeBreak cs || hasSpecial cs)

def admitsLiteral (cs : List Char) : Bool :=
  !(endsWithSpace cs || hasSpaceBeforeBreak cs || hasSpecial cs)

/-! ## The style of a text -/

/-- Whether a text would be read as something else if it were plain. -/
def needsQuotes (s : String) : Bool :=
  hasSpareZero s.toList || match resolve s with
    | .text => false
    | _ => true

def styleOf (s : String) : Style :=
  let cs := s.toList
  if cs.contains '\n' then if admitsLiteral cs then .literal else .doubleQuoted
  else if admitsPlain cs && !needsQuotes s then .plain
  else if admitsSingleQuoted cs then .singleQuoted
  else .doubleQuoted

/-- The longest key, in bytes, that is written without `?`. -/
def maxPlainKeySize : Nat := 128

/-- Whether a key is written without `?`. -/
def isSimpleKey (key : String) : Bool :=
  !hasBreak key.toList && decide (key.utf8ByteSize ≤ maxPlainKeySize)

end GuardTree.Yaml
