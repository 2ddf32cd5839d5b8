import GuardTree.Decimal.Nearest
import Mathlib

/-! # Whole numbers of 53 binary digits

`nearestInt n` is the integer nearest to `n` that has at most 53 significant binary digits, which is
what a floating-point number can hold of `n`. Up to `2 ^ 53` it is `n` itself (`nearestInt_of_le`);
from there on it may be another integer, but the order of two integers is never reversed
(`nearestInt_mono`), though two of them may have the same nearest one.
-/

namespace GuardTree.Decimal

set_option autoImplicit false

/-! ## Rounding a fraction -/

theorem div_le_roundHalfEven (n d : Nat) : n / d ≤ roundHalfEven n d := by
  unfold roundHalfEven
  dsimp only
  split_ifs <;> omega

theorem roundHalfEven_le_div_add_one (n d : Nat) : roundHalfEven n d ≤ n / d + 1 := by
  unfold roundHalfEven
  dsimp only
  split_ifs <;> omega

theorem roundHalfEven_mul_right (n : Nat) {d : Nat} (hd : 0 < d) : roundHalfEven (n * d) d = n := by
  simp [roundHalfEven, hd]

theorem roundHalfEven_mul_mul_right {c : Nat} (hc : 0 < c) (n d : Nat) :
    roundHalfEven (n * c) (d * c) = roundHalfEven n d := by
  have hpast : 2 * (n % d * c) = 2 * (n % d) * c := (Nat.mul_assoc 2 _ c).symm
  simp only [roundHalfEven, Nat.mul_div_mul_right n d hc, Nat.mul_mod_mul_right, hpast,
    Nat.mul_lt_mul_right hc]

theorem roundHalfEven_mono {m n : Nat} (h : m ≤ n) (d : Nat) :
    roundHalfEven m d ≤ roundHalfEven n d := by
  obtain hlt | heq := (Nat.div_le_div_right (c := d) h).lt_or_eq
  · calc roundHalfEven m d ≤ m / d + 1 := roundHalfEven_le_div_add_one m d
      _ ≤ n / d := hlt
      _ ≤ roundHalfEven n d := div_le_roundHalfEven n d
  · -- Between the same two whole numbers the larger fraction is nearer to the upper one.
    have hm := Nat.div_add_mod m d
    have hn := Nat.div_add_mod n d
    rw [heq] at hm
    have hmod : m % d ≤ n % d := by omega
    unfold roundHalfEven
    dsimp only
    rw [heq]
    split_ifs <;> omega

/-! ## The leading 53 digits -/

/-- The leading 53 digits of a number as a significand. -/
theorem leading_bounds {n : Nat} (h : 52 ≤ n.log2) :
    2 ^ 52 ≤ n / 2 ^ (n.log2 - 52) ∧ n / 2 ^ (n.log2 - 52) < 2 ^ 53 := by
  have hn : n ≠ 0 := by
    rintro rfl
    exact absurd h (by decide)
  have hlow : 2 ^ n.log2 = 2 ^ 52 * 2 ^ (n.log2 - 52) := by
    rw [← pow_add, Nat.add_sub_cancel' h]
  have hhigh : 2 ^ (n.log2 + 1) = 2 ^ 53 * 2 ^ (n.log2 - 52) := by
    rw [pow_succ, hlow]
    ring
  constructor
  · rw [Nat.le_div_iff_mul_le (Nat.two_pow_pos _), ← hlow]
    exact Nat.log2_self_le hn
  · rw [Nat.div_lt_iff_lt_mul (Nat.two_pow_pos _), ← hhigh]
    exact Nat.lt_log2_self

/-- Rounded, they may become the next power of two. -/
theorem rounded_bounds {n : Nat} (h : 52 ≤ n.log2) :
    2 ^ 52 ≤ roundHalfEven n (2 ^ (n.log2 - 52)) ∧
      roundHalfEven n (2 ^ (n.log2 - 52)) ≤ 2 ^ 53 := by
  obtain ⟨hlow, hhigh⟩ := leading_bounds h
  exact ⟨hlow.trans (div_le_roundHalfEven _ _), (roundHalfEven_le_div_add_one _ _).trans hhigh⟩

theorem log2_mul_two_pow {m : Nat} (hm : m ≠ 0) (k : Nat) : (m * 2 ^ k).log2 = m.log2 + k := by
  have hlow := Nat.log2_self_le hm
  have hhigh : m < 2 ^ (m.log2 + 1) := Nat.lt_log2_self
  rw [Nat.log2_eq_iff (Nat.mul_ne_zero hm (Nat.two_pow_pos k).ne')]
  constructor
  · rw [pow_add]
    exact Nat.mul_le_mul_right _ hlow
  · rw [Nat.add_right_comm, pow_add]
    exact Nat.mul_lt_mul_of_pos_right hhigh (Nat.two_pow_pos k)

/-- At most 53 significant binary digits. -/
def Short (n : Nat) : Prop := 2 ^ (n.log2 - 52) ∣ n

/-! ## The nearest short number -/

/-- The short number nearest to `n`; of two of them the one with the even significand. -/
def nearestNat (n : Nat) : Nat := roundHalfEven n (2 ^ (n.log2 - 52)) * 2 ^ (n.log2 - 52)

theorem nearestNat_of_log2_le {n : Nat} (h : n.log2 ≤ 52) : nearestNat n = n := by
  rw [nearestNat, Nat.sub_eq_zero_of_le h, pow_zero, mul_one]
  simpa using roundHalfEven_mul_right n one_pos

theorem short_nearestNat (n : Nat) : Short (nearestNat n) := by
  obtain hlog | hlog := Nat.le_total n.log2 52
  · rw [nearestNat_of_log2_le hlog, Short, Nat.sub_eq_zero_of_le hlog]
    exact one_dvd n
  · obtain ⟨hlow, hhigh⟩ := rounded_bounds hlog
    rw [Short, nearestNat, log2_mul_two_pow (by omega)]
    obtain hlt | heq := hhigh.lt_or_eq
    · have hlog2 : (roundHalfEven n (2 ^ (n.log2 - 52))).log2 = 52 :=
        (Nat.log2_eq_iff (by omega)).2 ⟨hlow, hlt⟩
      rw [hlog2, Nat.add_sub_cancel_left]
      exact Nat.dvd_mul_left _ _
    · rw [heq, Nat.log2_two_pow, ← pow_add]
      exact Nat.pow_dvd_pow 2 (by omega)

theorem two_pow_le_nearestNat {n : Nat} (hn : n ≠ 0) : 2 ^ n.log2 ≤ nearestNat n := by
  obtain hlog | hlog := Nat.le_total n.log2 52
  · rw [nearestNat_of_log2_le hlog]
    exact Nat.log2_self_le hn
  · calc 2 ^ n.log2 = 2 ^ 52 * 2 ^ (n.log2 - 52) := by rw [← pow_add, Nat.add_sub_cancel' hlog]
      _ ≤ nearestNat n := Nat.mul_le_mul_right _ (rounded_bounds hlog).1

theorem nearestNat_pos {n : Nat} (hn : n ≠ 0) : 0 < nearestNat n :=
  (Nat.two_pow_pos _).trans_le (two_pow_le_nearestNat hn)

theorem nearestNat_le_two_pow (n : Nat) : nearestNat n ≤ 2 ^ (n.log2 + 1) := by
  obtain hlog | hlog := Nat.le_total n.log2 52
  · rw [nearestNat_of_log2_le hlog]
    exact Nat.lt_log2_self.le
  · calc nearestNat n ≤ 2 ^ 53 * 2 ^ (n.log2 - 52) := Nat.mul_le_mul_right _ (rounded_bounds hlog).2
      _ = 2 ^ (n.log2 + 1) := by
        rw [← pow_add]
        congr 1
        omega

theorem nearestNat_mono {m n : Nat} (h : m ≤ n) : nearestNat m ≤ nearestNat n := by
  by_cases hm : m = 0
  · rw [hm]
    exact Nat.zero_le _
  have hn : n ≠ 0 := by omega
  have hlog : m.log2 ≤ n.log2 := (Nat.le_log2 hn).2 ((Nat.log2_self_le hm).trans h)
  obtain hlt | heq := hlog.lt_or_eq
  · calc nearestNat m ≤ 2 ^ (m.log2 + 1) := nearestNat_le_two_pow m
      _ ≤ 2 ^ n.log2 := Nat.pow_le_pow_right two_pos hlt
      _ ≤ nearestNat n := two_pow_le_nearestNat hn
  · rw [nearestNat, nearestNat, heq]
    exact Nat.mul_le_mul_right _ (roundHalfEven_mono h _)

theorem log2_nearestNat_le (n : Nat) : (nearestNat n).log2 ≤ n.log2 + 1 := by
  by_cases hn : n = 0
  · rw [hn]
    decide
  · have hlt : nearestNat n < 2 ^ (n.log2 + 2) :=
      (nearestNat_le_two_pow n).trans_lt (Nat.pow_lt_pow_right one_lt_two (Nat.lt_succ_self _))
    have hlog := (Nat.log2_lt (nearestNat_pos hn).ne').2 hlt
    omega

/-- The short integer nearest to an integer. -/
def nearestInt : Int → Int
  | .ofNat n => nearestNat n
  | .negSucc n => -(nearestNat (n + 1) : Int)

theorem nearestNat_of_le {n : Nat} (h : n ≤ 2 ^ 53) : nearestNat n = n := by
  obtain hlt | rfl := h.lt_or_eq
  · by_cases hn : n = 0
    · rw [hn]
      rfl
    · have hlog := (Nat.log2_lt hn).2 hlt
      exact nearestNat_of_log2_le (by omega)
  · decide +kernel

theorem nearestInt_of_le {n : Int} (h : n.natAbs ≤ 2 ^ 53) : nearestInt n = n := by
  cases n with
  | ofNat n => exact congrArg Int.ofNat (nearestNat_of_le h)
  | negSucc n => exact congrArg (fun m : Nat => -(m : Int)) (nearestNat_of_le h)

theorem nearestInt_mono {a b : Int} (h : a ≤ b) : nearestInt a ≤ nearestInt b := by
  cases a with
  | ofNat m =>
    cases b with
    | ofNat n => exact Int.ofNat_le.2 (nearestNat_mono (Int.ofNat_le.1 h))
    | negSucc n =>
      have hneg : Int.negSucc n < Int.ofNat m := Int.negSucc_lt_zero n |>.trans_le m.cast_nonneg
      exact absurd h hneg.not_ge
  | negSucc m =>
    cases b with
    | ofNat n =>
      show -(nearestNat (m + 1) : Int) ≤ (nearestNat n : Int)
      omega
    | negSucc n =>
      have hmono : nearestNat (n + 1) ≤ nearestNat (m + 1) := nearestNat_mono (by omega)
      show -(nearestNat (m + 1) : Int) ≤ -(nearestNat (n + 1) : Int)
      omega

end GuardTree.Decimal
