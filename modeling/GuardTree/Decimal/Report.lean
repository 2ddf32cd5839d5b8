import GuardTree.Decimal.Notation

/-! # Floating-point numbers in reports and in keys -/

namespace GuardTree.Decimal

set_option autoImplicit false

/-- In reports a number always shows a point or an exponent; from `1e-4` up to `1e16` it is written
out. -/
def report : Notation where
  positional := some (-4, 16)
  pointZero := true
  plus := false
  tie := .up
  notANumber := "NaN"
  infinity := "inf"
  negativeInfinity := "-inf"

/-- In keys a number is always written out, and a whole number has no point. -/
def plain : Notation where
  positional := none
  pointZero := false
  plus := false
  tie := .up
  notANumber := "NaN"
  infinity := "inf"
  negativeInfinity := "-inf"

end GuardTree.Decimal
