import GuardTree.Decimal.Reader
import GuardTree.Decimal.Report
import GuardTree.Text.Hex
import GuardTree.Tree.Node
import GuardTree.Yaml.Character

/-! # What scalars denote

A plain scalar denotes null, a truth value, an integer or a floating-point number if it has the form
of one, and else its own text.

* Integers are decimal or, after `0x`, `0o` or `0b`, in base sixteen, eight or two. A sign may stand
  before all of that.
* Decimal digits with a zero to spare in front denote no number.
* Decimal numbers whose value is too large for a floating-point number are texts.

A tag of the standard vocabulary demands one of these forms, however the scalar is quoted.
-/

namespace GuardTree.Yaml

set_option autoImplicit false

inductive Resolved
  | null
  | bool (b : Bool)
  /-- An integer that fits 64 bits, with a sign if it is negative. -/
  | integer (n : Int)
  /-- An integer that fits 128 bits but not 64. -/
  | wide
  | float (x : Float)
  /-- The text of the scalar itself. -/
  | text

/-! ## Forms -/

def isNull (s : String) : Bool := s == "null" || s == "Null" || s == "NULL" || s == "~"

def bool? (s : String) : Option Bool :=
  if s == "true" || s == "True" || s == "TRUE" then some true
  else if s == "false" || s == "False" || s == "FALSE" then some false
  else none

/-- The value of a digit in a base of at most sixteen. -/
def digit? (base : Nat) (c : Char) : Option Nat := (Text.hexValue? c).filter (· < base)

/-- The number that digits in a base denote, at least one of them. -/
def digits? (base : Nat) (cs : List Char) : Option Nat :=
  if cs.isEmpty then none else cs.foldlM (fun n c => (digit? base c).map (base * n + ·)) 0

def dropSign : List Char → List Char
  | '+' :: r => r
  | '-' :: r => r
  | r => r

/-- Decimal digits, perhaps with a sign, that start with a zero to spare. -/
def hasSpareZero (cs : List Char) : Bool :=
  match dropSign cs with
  | '0' :: d :: r => (d :: r).all Char.isDigit
  | _ => false

/-- The number that a text without a sign denotes. -/
def magnitude? : List Char → Option Nat
  | '0' :: 'x' :: r => digits? 16 r
  | '0' :: 'o' :: r => digits? 8 r
  | '0' :: 'b' :: r => digits? 2 r
  | cs => if hasSpareZero cs then none else digits? 10 cs

/-- The integer that a text denotes, if it fits 128 bits. -/
def integer? (cs : List Char) : Option Resolved :=
  match cs with
  | '-' :: r => (magnitude? r).bind fun n =>
      if n ≤ Nat.pow 2 63 then some (.integer (-Int.ofNat n))
      else if n ≤ Nat.pow 2 127 then some .wide else none
  | cs =>
    let r := match cs with
      | '+' :: r => r
      | r => r
    (magnitude? r).bind fun n =>
      if n < Nat.pow 2 64 then some (.integer n)
      else if n < Nat.pow 2 128 then some .wide else none

def isInfinity (s : String) : Bool := s == ".inf" || s == ".Inf" || s == ".INF"

def isNotANumber (s : String) : Bool := s == ".nan" || s == ".NaN" || s == ".NAN"

/-- The finite number that a text without a sign denotes. -/
def finite? (cs : List Char) : Option Float :=
  ((Decimal.ofChars? cs).map Decimal.toFloat).filter Float.isFinite

def float? (cs : List Char) : Option Float :=
  if isNotANumber (String.ofList cs) then some (0.0 / 0.0)
  else match cs with
    | '-' :: r => if isInfinity (String.ofList r) then some (-1.0 / 0.0) else (finite? r).map (-·)
    | '+' :: r => if isInfinity (String.ofList r) then some (1.0 / 0.0) else finite? r
    | r => if isInfinity (String.ofList r) then some (1.0 / 0.0) else finite? r

def resolve (s : String) : Resolved :=
  if s.isEmpty || isNull s then .null
  else match bool? s with
    | some b => .bool b
    | none => match integer? s.toList with
      | some i => i
      | none =>
        if hasSpareZero s.toList then .text
        else match float? s.toList with
          | some x => .float x
          | none => .text

/-! ## Tags -/

inductive Tag
  /-- A tag of an application, which has no meaning here. So has a `!` that stands alone. -/
  | application
  | null
  | bool
  | integer
  | float
  /-- Any other tag; a scalar with it is its own text. -/
  | other
deriving DecidableEq

/-- The start of the tags of the standard vocabulary. -/
def vocabulary : String := "tag:yaml.org,2002:"

/-- The meaning of a tag given by its octets, which end at a zero. One that starts like a tag of an
application without being proper text has none. -/
def Tag.ofOctets (octets : List UInt8) : Option Tag :=
  let octets := octets.takeWhile (· != 0)
  match octets with
  | 33 :: r => if (String.fromUTF8? ⟨r.toArray⟩).isSome then some .application else none
  | _ =>
    let named (s : String) : Bool := octets == (vocabulary ++ s).toUTF8.toList
    if named "null" then some .null
    else if named "bool" then some .bool
    else if named "int" then some .integer
    else if named "float" then some .float
    else some .other

/-- What a scalar denotes; nothing if its tag demands another form or belongs to an application. -/
def resolveTagged (tag : Option Tag) (plain : Bool) (s : String) : Option Resolved :=
  match tag with
  | none => some (if plain then resolve s else .text)
  | some .application => none
  | some .null => if isNull s then some .null else none
  | some .bool => (bool? s).map .bool
  | some .integer => integer? s.toList
  | some .float => (float? s.toList).map .float
  | some .other => some .text

/-! ## Leaves and keys -/

/-- The leaf for what a scalar denotes. An integer of 64 bits becomes a floating-point number if it
needs all of them. -/
def Resolved.leaf? (s : String) : Resolved → Option Scalar
  | .null => some .null
  | .bool b => some (.bool b)
  | .integer n =>
    some (if n ≤ Int64.maxValue.toInt then .integer (Int64.ofInt n) else .float (Float.ofInt n))
  | .wide => none
  | .float x => some (.float x)
  | .text => some (.string s)

def Resolved.key? (s : String) : Resolved → Option String
  | .null => some "null"
  | .bool b => some (toString b)
  | .integer n => some (toString n)
  | .wide => none
  | .float x => some (Decimal.plain.write x)
  | .text => some s

end GuardTree.Yaml
