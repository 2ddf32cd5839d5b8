import GuardTree.Text.Property.Alphabetic
import GuardTree.Text.Property.Graphic
import GuardTree.Text.Property.Mark
import GuardTree.Text.Property.Numeric
import GuardTree.Text.Property.Recent
import GuardTree.Text.Property.Space

/-! # Classes of characters

Two classes of name characters are in use, and they differ:

* `isNameChar`: a letter or number of any kind, or `_`. Words of guard expressions and names of
  variables given by hand are made of these.
* `isWordChar`: a letter, a mark, a decimal digit, connecting punctuation or a joiner, unless the
  latest version of Unicode is the first to have it. Names of placeholders in text are made of
  these.

Inside ASCII both are the letters, the digits and `_` (`isNameChar_ascii`, `isWordChar_ascii`), so
every class looks at ASCII first and consults the Unicode property above it.
-/

namespace GuardTree.Text

set_option autoImplicit false

/-- A code point of the seven-bit range. -/
def isAscii (c : Char) : Bool := decide (c.toNat < 128)

/-- Letters of every script. -/
def isAlphabetic (c : Char) : Bool :=
  if isAscii c then c.isAlpha else within Property.alphabetic c

/-- Letters and numbers of every script, circled and raised numbers included. -/
def isAlphanumeric (c : Char) : Bool :=
  if isAscii c then c.isAlphanum else within Property.alphabetic c || within Property.numeric c

/-- A letter, a number or the low line. -/
def isNameChar (c : Char) : Bool := isAlphanumeric c || c == '_'

/-- The two characters that join or separate letters without a form of their own. -/
def isJoinControl (c : Char) : Bool := c == '\u200c' || c == '\u200d'

/-- A letter, mark, decimal digit, connector or joiner that is not recent. -/
def isWordChar (c : Char) : Bool :=
  if isAscii c then c.isAlphanum || c == '_'
  else !within Property.recent c &&
    (within Property.alphabetic c || within Property.mark c || within Property.decimalDigit c ||
      within Property.connector c || isJoinControl c)

/-- White space of every script. -/
def isSpace (c : Char) : Bool := within Property.whiteSpace c

/-- The letters that stand for no letter. -/
def isFiller (c : Char) : Bool :=
  c == '\u115f' || c == '\u1160' || c == '\u3164' || c == '\uffa0'

/-- The sound marks of half width, which extend the character before them but take up a place of
their own. -/
def isHalfwidthMark (c : Char) : Bool := c == '\uff9e' || c == '\uff9f'

/-- A character that a reader sees as itself: it has a form, or is the plain space, and does not
merge with the character before it. -/
def isVisible (c : Char) : Bool :=
  if isAscii c then decide (32 ≤ c.toNat) && decide (c.toNat < 127)
  else within Property.graphic c && !isFiller c &&
    (!within Property.graphemeExtend c || isHalfwidthMark c)

theorem isNameChar_ascii {c : Char} (h : isAscii c = true) :
    isNameChar c = (c.isAlphanum || c == '_') := by
  simp [isNameChar, isAlphanumeric, h]

theorem isWordChar_ascii {c : Char} (h : isAscii c = true) :
    isWordChar c = (c.isAlphanum || c == '_') := by
  simp [isWordChar, h]

end GuardTree.Text
