/-! # The shortest decimal of a floating-point number

A finite non-zero number is `significand * 2 ^ exponent`; every real close enough to it is read back
as the same number. `shortest` finds the decimal with the fewest digits among those reals and, of
several with that many digits, the nearest.

* `Binary`: significand and exponent, taken from the bits.
* `Decimal`: digits and a power of ten.
* `Interval`: the reals that read back as the number, with a power of ten for the unit.
* `Interval.nearest?`: the nearer of the two multiples of the unit next to the number that read back.
* `shortest`: the first power of ten, from above, that has a multiple in the interval.
-/

namespace GuardTree

set_option autoImplicit false

/-- The number `digits * 10 ^ exponent`. -/
structure Decimal where
  digits : Nat
  exponent : Int
deriving DecidableEq

namespace Decimal

/-- The number `significand * 2 ^ exponent`. -/
structure Binary where
  significand : Nat
  exponent : Int

/-- Which neighbour an exact half goes to. -/
inductive Tie
  | up
  | even
deriving DecidableEq

/-- Significand and exponent of a finite number, its sign aside. -/
def Binary.ofFloat (x : Float) : Binary :=
  let bits := x.toBits.toNat
  let field := bits / Nat.pow 2 52 % 2048
  let fraction := bits % Nat.pow 2 52
  if field = 0 then ⟨fraction, -1074⟩ else ⟨Nat.pow 2 52 + fraction, Int.ofNat field - 1075⟩

/-- Four times the number, and the ends of the interval of reals that read back as it, over one
common denominator. Below a power of two the numbers lie twice as close, so the lower end is nearer
there. -/
structure Interval where
  low : Nat
  middle : Nat
  high : Nat
  denominator : Nat
  /-- Whether the ends themselves read back, which an even significand makes them do. -/
  closed : Bool

/-- The interval of `b`, scaled so that `10 ^ power` is the unit. -/
def Binary.interval (b : Binary) (power : Int) : Interval :=
  let lowStep := if b.significand = Nat.pow 2 52 ∧ b.exponent ≠ -1074 then 1 else 2
  let e := b.exponent - 2
  let above := Nat.pow 2 e.toNat * Nat.pow 10 (-power).toNat
  let below := Nat.pow 2 (-e).toNat * Nat.pow 10 power.toNat
  { low := (4 * b.significand - lowStep) * above
    middle := 4 * b.significand * above
    high := (4 * b.significand + 2) * above
    denominator := below
    closed := b.significand % 2 = 0 }

/-- Whether the whole number `k` lies in the interval. -/
def Interval.holds (i : Interval) (k : Nat) : Bool :=
  let v := k * i.denominator
  if i.closed then decide (i.low ≤ v) && decide (v ≤ i.high)
  else decide (i.low < v) && decide (v < i.high)

/-- The whole number nearest to the middle of those two around it that lie in the interval. -/
def Interval.nearest? (i : Interval) (tie : Tie) : Option Nat :=
  let k := i.middle / i.denominator
  let past := 2 * (i.middle - k * i.denominator)
  match i.holds k, i.holds (k + 1) with
  | false, false => none
  | true, false => some k
  | false, true => some (k + 1)
  | true, true =>
    if past < i.denominator then some k
    else if i.denominator < past then some (k + 1)
    else match tie with
      | .up => some (k + 1)
      | .even => some (if k % 2 = 0 then k else k + 1)

/-- Tries the powers of ten downwards from `power`. -/
def Binary.search (b : Binary) (tie : Tie) : Nat → Int → Option Decimal
  | 0, _ => none
  | steps + 1, power =>
    match (b.interval power).nearest? tie with
    | some k => some ⟨k, power⟩
    | none => b.search tie steps (power - 1)

def Binary.powerAbove (b : Binary) : Int :=
  (Int.ofNat b.significand.log2 + b.exponent + 1) * 1233 / 4096 + 2

/-- The decimal of fewest digits that reads back as the finite number `x`, sign aside. Seventeen
digits always suffice, and the search starts at most four powers above the first digit. -/
def shortest (x : Float) (tie : Tie) : Decimal :=
  let b := Binary.ofFloat x
  if b.significand = 0 then ⟨0, 0⟩ else (b.search tie 24 b.powerAbove).getD ⟨0, 0⟩

end Decimal

end GuardTree
