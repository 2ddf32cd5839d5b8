import GuardTree.Decimal.Nearest

/-! # Reading decimal numbers

The accepted form is digits with at most one point among or around them, at least one digit in all,
and optionally `e` or `E`, a sign and at least one digit.
-/

namespace GuardTree.Decimal

set_option autoImplicit false

/-- The number that a list of decimal digits denotes. -/
def natOfDigits (cs : List Char) : Nat :=
  cs.foldl (fun n c => 10 * n + (c.toNat - '0'.toNat)) 0

def isDigits (cs : List Char) : Bool := !cs.isEmpty && cs.all Char.isDigit

/-- The exponent part of a number; nothing at all means zero. -/
def exponent? : List Char → Option Int
  | [] => some 0
  | c :: r =>
    if c == 'e' || c == 'E' then
      match r with
      | '-' :: ds => if isDigits ds then some (-Int.ofNat (natOfDigits ds)) else none
      | '+' :: ds => if isDigits ds then some (Int.ofNat (natOfDigits ds)) else none
      | ds => if isDigits ds then some (Int.ofNat (natOfDigits ds)) else none
    else none

/-- The number written by a text without a sign. -/
def ofChars? (cs : List Char) : Option Decimal :=
  let whole := cs.takeWhile Char.isDigit
  let afterWhole := cs.dropWhile Char.isDigit
  let (places, tail) := match afterWhole with
    | '.' :: r => (r.takeWhile Char.isDigit, r.dropWhile Char.isDigit)
    | r => ([], r)
  if whole.isEmpty && places.isEmpty then none
  else (exponent? tail).map fun e =>
    ⟨natOfDigits (whole ++ places), e - Int.ofNat places.length⟩

end GuardTree.Decimal
