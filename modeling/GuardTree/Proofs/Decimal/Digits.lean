import GuardTree.Decimal.Reader
import Mathlib

/-! # Digits of whole numbers

The digits of a number denote it, and an integer is written as the digits of its size, after a sign
if it is negative (`exists_toDigits`).
-/

namespace GuardTree.Decimal

set_option autoImplicit false

/-- A property of the ten digits holds of every digit. -/
theorem forall_isDigit {p : Char → Prop} (h : ∀ n < 10, p (Char.ofNat (48 + n))) {c : Char}
    (hc : c.isDigit = true) : p c := by
  have hrange : 48 ≤ c.toNat ∧ c.toNat ≤ 57 := by
    simpa [Char.isDigit, UInt32.le_iff_toNat_le] using hc
  have hn := h (c.toNat - 48) (by omega)
  rwa [Nat.add_sub_cancel' hrange.1, Char.ofNat_toNat] at hn

theorem natOfDigits_toDigits (n : Nat) : natOfDigits (Nat.toDigits 10 n) = n := by
  rw [natOfDigits, ← Nat.ofDigitChars_eq_foldl, Nat.ofDigitChars_ten_toDigits]

/-- Only zero is written with a zero in front. -/
theorem eq_zero_of_head?_toDigits {n : Nat} (h : (Nat.toDigits 10 n).head? = some '0') : n = 0 := by
  induction n using Nat.strongRecOn with
  | _ n ih =>
    rw [Nat.toDigits_eq_if (by decide)] at h
    split at h
    case isTrue hlt =>
      rw [List.head?_cons, Option.some.injEq, Nat.digitChar_eq_zero] at h
      exact h
    case isFalse hge =>
      rw [List.head?_append_of_ne_nil _ Nat.toDigits_ne_nil] at h
      have hzero := ih (n / 10) (by omega) h
      omega

theorem isDigit_of_mem_toDigits {n : Nat} {c : Char} (h : c ∈ Nat.toDigits 10 n) :
    c.isDigit = true :=
  Nat.isDigit_of_mem_toDigits (by decide) (by decide) h

theorem toDigits_eq_cons (n : Nat) : ∃ c r, Nat.toDigits 10 n = c :: r ∧ c.isDigit = true := by
  obtain ⟨c, r, h⟩ := List.exists_cons_of_ne_nil (Nat.toDigits_ne_nil (b := 10) (n := n))
  exact ⟨c, r, h, isDigit_of_mem_toDigits (by rw [h]; exact List.mem_cons_self)⟩

theorem toList_toString_ofNat (n : Nat) :
    (toString (Int.ofNat n)).toList = Nat.toDigits 10 n := by
  rw [Int.toString_eq_repr]
  exact Nat.toList_repr

theorem toList_toString_negSucc (n : Nat) :
    (toString (Int.negSucc n)).toList = '-' :: Nat.toDigits 10 (n + 1) := by
  rw [Int.toString_eq_repr, Int.repr, String.toList_append, Nat.toList_repr]
  rfl

/-- The text of an integer: its digits, after a sign if it is negative. -/
theorem exists_toDigits (i : Int64) :
    (∃ n, (toString i.toInt).toList = Nat.toDigits 10 n ∧ n < 2 ^ 63 ∧ i = Int64.ofNat n) ∨
      ∃ n, (toString i.toInt).toList = '-' :: Nat.toDigits 10 n ∧ 0 < n ∧ n ≤ 2 ^ 63 ∧
        i = Int64.ofInt (-Int.ofNat n) := by
  have hle := i.toInt_lt
  have hge := i.le_toInt
  have hi : Int64.ofInt i.toInt = i := Int64.ofInt_toInt i
  cases hn : i.toInt with
  | ofNat n =>
    rw [hn] at hle hi
    refine .inl ⟨n, toList_toString_ofNat n, ?_, ?_⟩
    · exact Int.ofNat_lt.1 hle
    · rw [← hi]
      exact Int64.ofInt_eq_ofNat
  | negSucc n =>
    rw [hn] at hge hi
    exact .inr ⟨n + 1, toList_toString_negSucc n, Nat.succ_pos n, by omega, hi.symm⟩

end GuardTree.Decimal
