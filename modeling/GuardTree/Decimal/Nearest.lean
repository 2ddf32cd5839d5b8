import GuardTree.Decimal.Shortest

/-! # The floating-point number nearest to a decimal

A decimal is a fraction of two whole numbers. `Binary.nearest` rounds such a fraction to as many
binary places as a floating-point number of its size has, in exact arithmetic, and `toFloat` puts
the result into bits. A fraction half way between two neighbours goes to the even one.

* `roundHalfEven`: the whole number nearest to a fraction.
* `lastPlace`: the power of two that the significand counts.
* `toFloat`: the number that a decimal is read as.
-/

namespace GuardTree.Decimal

set_option autoImplicit false

/-- The whole number nearest to `n / d`; of two of them the even one. -/
def roundHalfEven (n d : Nat) : Nat :=
  let q := n / d
  let past := 2 * (n % d)
  if past < d then q
  else if d < past then q + 1
  else if q % 2 = 0 then q
  else q + 1

/-- The power of two by which `n / d` is to be divided for a result of 53 binary digits. -/
def lastPlace (n d : Nat) : Int :=
  let places := Int.ofNat n.log2 - Int.ofNat d.log2
  if d * Nat.pow 2 n.log2 ≤ n * Nat.pow 2 d.log2 then places - 52 else places - 53

/-- The significand of 53 binary digits and the exponent nearest to `n / d`; close to zero there are
fewer digits. A significand of `2 ^ 53` stands for half of it with the next exponent. -/
def Binary.nearest (n d : Nat) : Binary :=
  let e := max (lastPlace n d) (-1074)
  ⟨roundHalfEven (n * Nat.pow 2 (-e).toNat) (d * Nat.pow 2 e.toNat), e⟩

def infinityBits : Nat := 2047 * Nat.pow 2 52

/-- A number in bits; one that is too large becomes infinity. The leading digit of a significand has
no bit of its own but counts as one more in the exponent, which is what adding it does. -/
def Binary.toFloat (b : Binary) : Float :=
  let bits := (b.exponent + 1074).toNat * Nat.pow 2 52 + b.significand
  .ofBits (UInt64.ofNat (min bits infinityBits))

/-- The number nearest to `digits * 10 ^ exponent`. Powers of ten from the 309th on are too large for
any digits, and a number below the half of the least one is zero. -/
def toFloat (d : Decimal) : Float :=
  if d.digits = 0 then 0.0
  else match d.exponent with
    | .ofNat e =>
      if 308 < e then .ofBits (UInt64.ofNat infinityBits)
      else (Binary.nearest (d.digits * Nat.pow 10 e) 1).toFloat
    | .negSucc e =>
      if d.digits.log2 + 1076 < 3 * (e + 1) then 0.0
      else (Binary.nearest d.digits (Nat.pow 10 (e + 1))).toFloat

def powerOfTen (e : Nat) : Float := toFloat ⟨1, e⟩

end GuardTree.Decimal
