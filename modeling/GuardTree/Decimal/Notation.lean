import GuardTree.Decimal.Shortest

/-! # Ways to write a floating-point number

All of them write the digits of `shortest`; a `Notation` says where the point goes, when an exponent
is used and how it looks, and how the values that are no numbers are spelt.
-/

namespace GuardTree.Decimal

set_option autoImplicit false

structure Notation where
  /-- The leading digits' powers of ten that are written without an exponent: at least the first,
  below the second. -/
  positional : Option (Int × Int)
  /-- Whether a whole number without an exponent ends in `.0`. -/
  pointZero : Bool
  /-- Whether an exponent that is not negative carries a plus sign. -/
  plus : Bool
  tie : Tie
  notANumber : String
  infinity : String
  negativeInfinity : String

/-- `n` zeros. -/
def zeros (n : Nat) : String := String.ofList (List.replicate n '0')

/-- Digits with the point `shift` places to the left of their end, zeros filled in. -/
def withPoint (pointZero : Bool) (digits : String) (exponent : Int) : String :=
  match exponent with
  | .ofNat e => digits ++ zeros e ++ (if pointZero then ".0" else "")
  | .negSucc e =>
    let places := e + 1
    let padded := (zeros (places + 1 - digits.length) ++ digits).toList
    let whole := padded.take (padded.length - places)
    let rest := padded.drop (padded.length - places)
    String.ofList whole ++ "." ++ String.ofList rest

/-- One digit, a point, the other digits, and the power of ten. -/
def withExponent (plus : Bool) (digits : List Char) (lead : Int) : String :=
  let body := match digits with
    | d :: [] => String.ofList [d]
    | d :: rest => String.ofList (d :: '.' :: rest)
    | [] => ""
  body ++ "e" ++ (if plus && decide (0 ≤ lead) then "+" else "") ++ toString lead

/-- The text of a finite number without its sign. -/
def Notation.magnitude (n : Notation) (x : Float) : String :=
  let d := shortest x n.tie
  let digits := toString d.digits
  let lead := d.exponent + Int.ofNat digits.length - 1
  let inside := d.digits == 0 || match n.positional with
    | none => true
    | some (low, high) => decide (low ≤ lead) && decide (lead < high)
  if inside then withPoint n.pointZero digits d.exponent
  else withExponent n.plus digits.toList lead

def Notation.write (n : Notation) (x : Float) : String :=
  if x.isNaN then n.notANumber
  else
    let negative := decide (Nat.pow 2 63 ≤ x.toBits.toNat)
    if x.isInf then (if negative then n.negativeInfinity else n.infinity)
    else (if negative then "-" else "") ++ n.magnitude x

end GuardTree.Decimal
