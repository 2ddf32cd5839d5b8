import GuardTree.Decimal.Reader
import GuardTree.Tree.Node

/-! # Reading JSON numbers

A whole number that fits a 64-bit integer is read exactly. Every other number becomes a
floating-point number: as many leading digits as fit 64 bits are taken, and the result is scaled by
the power of ten that is left. The scaling is one multiplication or division where a power up to
`10 ^ 308` suffices, so the result need not be the nearest number to the text. A number too large
for a floating-point number is refused.
-/

namespace GuardTree.Json

set_option autoImplicit false

/-- The digits of a number: before the point, after it if there is one, and the exponent if there is
one. -/
structure Numeral where
  negative : Bool
  whole : List Char
  places : Option (List Char)
  exponent : Option Int

/-- Takes digits as long as the number stays below `2 ^ 64`; the digits from the first one that does
not fit are left over. -/
def absorb (n : Nat) : List Char → Nat × List Char
  | [] => (n, [])
  | c :: r =>
    let next := 10 * n + (c.toNat - '0'.toNat)
    if next < Nat.pow 2 64 then absorb next r else (n, c :: r)

/-- `x * 10 ^ e`; nothing if that is too large. -/
def scale (x : Float) (e : Int) : Option Float :=
  if 308 < e then (if x == 0.0 then some x else none)
  else if 0 ≤ e then
    let y := x * Decimal.powerOfTen e.toNat
    if y.isInf then none else some y
  else if -308 ≤ e then some (x / Decimal.powerOfTen (-e).toNat)
  else if x == 0.0 then some x
  else scale (x / Decimal.powerOfTen 308) (e + 308)
termination_by e.natAbs
decreasing_by omega

/-- The floating-point number that a numeral is read as. -/
def Numeral.float? (n : Numeral) : Option Float :=
  let (s, dropped) := absorb 0 n.whole
  let places := n.places.getD []
  let (s, ignored) := absorb s places
  let e := n.exponent.getD 0 + Int.ofNat dropped.length -
    Int.ofNat (places.length - ignored.length)
  (scale (Float.ofNat s) e).map fun x => if n.negative then -x else x

def Numeral.scalar? (n : Numeral) : Option Scalar :=
  let value := Decimal.natOfDigits n.whole
  let isWhole := n.places.isNone && n.exponent.isNone
  if isWhole && !n.negative && decide (value < Nat.pow 2 63) then
    some (.integer (Int64.ofNat value))
  else if isWhole && n.negative && decide (0 < value) && decide (value ≤ Nat.pow 2 63) then
    some (.integer (Int64.ofInt (-Int.ofNat value)))
  else n.float?.map .float

/-! ## The grammar of numbers -/

/-- Digits at the front of a text, at least one of them, and what follows. -/
def digits? (cs : List Char) : Option (List Char × List Char) :=
  let ds := cs.takeWhile Char.isDigit
  if ds.isEmpty then none else some (ds, cs.dropWhile Char.isDigit)

/-- The part before the point; a zero stands alone. -/
def whole? (cs : List Char) : Option (List Char × List Char) :=
  match digits? cs with
  | some ('0' :: _ :: _, _) => none
  | some (ds, r) => some (ds, r)
  | none => none

/-- The part after the point, if a point follows. -/
def places? (cs : List Char) : Option (Option (List Char) × List Char) :=
  match cs with
  | '.' :: r => (digits? r).map fun (ds, r) => (some ds, r)
  | r => some (none, r)

def exponentDigits? (negative : Bool) (cs : List Char) : Option (Option Int × List Char) :=
  (digits? cs).map fun (ds, r) =>
    let n := Int.ofNat (Decimal.natOfDigits ds)
    (some (if negative then -n else n), r)

/-- The exponent, if one follows. -/
def exponent? (cs : List Char) : Option (Option Int × List Char) :=
  match cs with
  | [] => some (none, [])
  | c :: r =>
    if c == 'e' || c == 'E' then
      match r with
      | '+' :: r => exponentDigits? false r
      | '-' :: r => exponentDigits? true r
      | r => exponentDigits? false r
    else some (none, c :: r)

/-- The numeral at the front of a text, its sign having been taken. -/
def numeral? (negative : Bool) (cs : List Char) : Option (Numeral × List Char) := do
  let (whole, cs) ← whole? cs
  let (places, cs) ← places? cs
  let (exponent, cs) ← exponent? cs
  return (⟨negative, whole, places, exponent⟩, cs)

def number? (cs : List Char) : Option (Scalar × List Char) := do
  let (n, rest) ← match cs with
    | '-' :: r => numeral? true r
    | r => numeral? false r
  let s ← n.scalar?
  return (s, rest)

/-! ## A number takes something off the text -/

theorem digits?_length_lt {cs ds r : List Char} (h : digits? cs = some (ds, r)) :
    r.length < cs.length := by
  unfold digits? at h
  dsimp only at h
  split at h
  · cases h
  · rename_i hne
    cases h
    have := congrArg List.length
      (List.takeWhile_append_dropWhile (p := Char.isDigit) (l := cs))
    have hp : 0 < (cs.takeWhile Char.isDigit).length := by
      simpa [List.length_pos_iff, List.isEmpty_iff] using hne
    rw [List.length_append] at this
    omega

theorem whole?_length_lt {cs ds r : List Char} (h : whole? cs = some (ds, r)) :
    r.length < cs.length := by
  unfold whole? at h
  split at h
  · cases h
  · rename_i hd
    cases h
    exact digits?_length_lt hd
  · cases h

theorem places?_length_le {cs r : List Char} {p : Option (List Char)}
    (h : places? cs = some (p, r)) : r.length ≤ cs.length := by
  unfold places? at h
  split at h
  · obtain ⟨⟨ds, r'⟩, hd, he⟩ := Option.map_eq_some_iff.1 h
    cases he
    have := digits?_length_lt hd
    simp only [List.length_cons]
    omega
  · cases h
    exact Nat.le_refl _

theorem exponentDigits?_length_lt {negative : Bool} {cs r : List Char} {e : Option Int}
    (h : exponentDigits? negative cs = some (e, r)) : r.length < cs.length := by
  obtain ⟨⟨ds, r'⟩, hd, he⟩ := Option.map_eq_some_iff.1 h
  cases he
  exact digits?_length_lt hd

theorem exponent?_length_le {cs r : List Char} {e : Option Int}
    (h : exponent? cs = some (e, r)) : r.length ≤ cs.length := by
  unfold exponent? at h
  split at h
  · cases h
    exact Nat.le_refl _
  · split at h
    · split at h
      all_goals
        have := exponentDigits?_length_lt h
        simp only [List.length_cons]
        omega
    · cases h
      exact Nat.le_refl _

theorem numeral?_length_lt {negative : Bool} {cs r : List Char} {n : Numeral}
    (h : numeral? negative cs = some (n, r)) : r.length < cs.length := by
  simp only [numeral?, Option.bind_eq_bind, Option.bind_eq_some_iff] at h
  obtain ⟨⟨w, r₁⟩, h₁, ⟨p, r₂⟩, h₂, ⟨e, r₃⟩, h₃, h⟩ := h
  cases h
  exact Nat.lt_of_le_of_lt (exponent?_length_le h₃)
    (Nat.lt_of_le_of_lt (places?_length_le h₂) (whole?_length_lt h₁))

theorem number?_length_lt {cs r : List Char} {s : Scalar} (h : number? cs = some (s, r)) :
    r.length < cs.length := by
  unfold number? at h
  split at h
  all_goals
    simp only [Option.bind_eq_bind, Option.bind_eq_some_iff] at h
    obtain ⟨⟨n, r₁⟩, h₁, s', _, h⟩ := h
    cases h
    have := numeral?_length_lt h₁
    simp only [List.length_cons]
    omega

end GuardTree.Json
