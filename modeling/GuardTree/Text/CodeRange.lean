/-! # Sets of characters given by code point ranges

A Unicode property is a list of closed ranges of code points; `within` is membership of a
character.
-/

namespace GuardTree.Text

set_option autoImplicit false

/-- Closed ranges of code points, written `(first, last)`. -/
abbrev CodeRanges := List (Nat × Nat)

/-- Whether the code point of `c` lies in one of the ranges. -/
def within (ranges : CodeRanges) (c : Char) : Bool :=
  ranges.any fun r => decide (r.1 ≤ c.toNat) && decide (c.toNat ≤ r.2)

theorem within_iff (ranges : CodeRanges) (c : Char) :
    within ranges c = true ↔ ∃ r ∈ ranges, r.1 ≤ c.toNat ∧ c.toNat ≤ r.2 := by
  simp [within]

/-- A character of one set is none of another whose ranges lie apart. -/
theorem not_within_of_apart {xs ys : CodeRanges} {c : Char}
    (h : (xs.all fun x => ys.all fun y => x.2 < y.1 || y.2 < x.1) = true)
    (hc : within xs c = true) : within ys c = false := by
  obtain ⟨x, hx, hle, hge⟩ := (within_iff xs c).1 hc
  rw [← Bool.not_eq_true, within_iff]
  rintro ⟨y, hy, hle', hge'⟩
  have hapart := List.all_eq_true.1 (List.all_eq_true.1 h x hx) y hy
  simp only [Bool.or_eq_true, decide_eq_true_eq] at hapart
  omega

end GuardTree.Text
