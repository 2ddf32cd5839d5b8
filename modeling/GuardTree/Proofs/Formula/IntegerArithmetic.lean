import GuardTree.Formula.Eval
import GuardTree.Proofs.Formula.Nesting
import Mathlib

/-! # Arithmetic of integers

Signs, sums, differences and products of integers are exact or refused: such an expression has its
exact value if the values of all its parts fit 64 bits, and overflows otherwise
(`eval_exact_or_refused`). A remainder is that of the quotient rounded down, and always fits; it is
returned unless the integer quotient does not fit (`rem_floors`, `evaluate_rem_refused`).
-/

namespace GuardTree.Formula

set_option autoImplicit false

/-! ## Integers of 64 bits -/

def Fits (k : Int) : Prop := Int64.minValue.toInt ≤ k ∧ k ≤ Int64.maxValue.toInt

instance (k : Int) : Decidable (Fits k) := inferInstanceAs (Decidable (_ ∧ _))

theorem fits_iff {k : Int} : Fits k ↔ -2 ^ 63 ≤ k ∧ k < 2 ^ 63 := by
  rw [Fits, Int64.toInt_minValue, Int64.toInt_maxValue]
  omega

theorem fits_toInt (n : Int64) : Fits n.toInt := fits_iff.2 ⟨n.le_toInt, n.toInt_lt⟩

theorem toInt_ofInt_of_fits {k : Int} (h : Fits k) : (Int64.ofInt k).toInt = k := by
  obtain ⟨hle, hlt⟩ := fits_iff.1 h
  exact Int64.toInt_ofInt_of_le hle hlt

theorem exact_of_fits {k : Int} (h : Fits k) : exact k = .ok (.int (Int64.ofInt k)) := if_pos h

theorem exact_of_not_fits {k : Int} (h : ¬ Fits k) : exact k = .error (.type .overflow) := if_neg h

/-! ## Signs, sums and products -/

/-- The operations that have integers for integers. -/
inductive WholeOp
  | add
  | sub
  | mul

def WholeOp.arithmetic : WholeOp → Arithmetic
  | .add => .add
  | .sub => .sub
  | .mul => .mul

def WholeOp.apply : WholeOp → Int → Int → Int
  | .add, a, b => a + b
  | .sub, a, b => a - b
  | .mul, a, b => a * b

theorem arith_whole (op : WholeOp) (a b : Int64) :
    arith op.arithmetic (.int a) (.int b) = exact (op.apply a.toInt b.toInt) := by
  cases op <;> rfl

/-- An expression of integers, signs, sums, differences and products. -/
inductive WholeExpr
  | literal (n : Int64)
  | neg (t : WholeExpr)
  | arith (op : WholeOp) (l r : WholeExpr)

namespace WholeExpr

def expr : WholeExpr → Expr
  | literal n => .literal (.int n)
  | neg t => .neg t.expr
  | arith op l r => .arith op.arithmetic l.expr r.expr

/-- The exact value. -/
def value : WholeExpr → Int
  | literal n => n.toInt
  | neg t => -t.value
  | arith op l r => op.apply l.value r.value

/-- The expression itself and all expressions in it. -/
def parts : WholeExpr → List WholeExpr
  | literal n => [literal n]
  | neg t => neg t :: t.parts
  | arith op l r => arith op l r :: (l.parts ++ r.parts)

def AllFit (t : WholeExpr) : Prop := ∀ s ∈ t.parts, Fits s.value

theorem allFit_literal (n : Int64) : (literal n).AllFit := by
  intro s hs
  obtain rfl := List.mem_singleton.1 hs
  exact fits_toInt n

theorem allFit_neg_iff {t : WholeExpr} : (neg t).AllFit ↔ Fits (-t.value) ∧ t.AllFit :=
  List.forall_mem_cons

theorem allFit_arith_iff {op : WholeOp} {l r : WholeExpr} :
    (arith op l r).AllFit ↔ Fits (op.apply l.value r.value) ∧ l.AllFit ∧ r.AllFit := by
  rw [AllFit, parts, List.forall_mem_cons, List.forall_mem_append]
  rfl

theorem eval_of_allFit {t : WholeExpr} (h : t.AllFit) :
    ∃ n : Int64, t.expr.eval = .ok (.int n) ∧ n.toInt = t.value := by
  induction t with
  | literal n => exact ⟨n, by rw [expr, Expr.eval], rfl⟩
  | neg t ih =>
    obtain ⟨hfits, ht⟩ := allFit_neg_iff.1 h
    obtain ⟨n, hn, hvalue⟩ := ih ht
    refine ⟨Int64.ofInt (-t.value), ?_, toInt_ofInt_of_fits hfits⟩
    rw [expr, Expr.eval, hn]
    show exact (-n.toInt) = _
    rw [hvalue, exact_of_fits hfits]
  | arith op l r ihl ihr =>
    obtain ⟨hfits, hl, hr⟩ := allFit_arith_iff.1 h
    obtain ⟨a, ha, havalue⟩ := ihl hl
    obtain ⟨b, hb, hbvalue⟩ := ihr hr
    refine ⟨Int64.ofInt (op.apply l.value r.value), ?_, toInt_ofInt_of_fits hfits⟩
    rw [expr, Expr.eval, ha, hb]
    show Formula.arith op.arithmetic (.int a) (.int b) = _
    rw [arith_whole, havalue, hbvalue, exact_of_fits hfits]

/-- The first part that does not fit is refused, and with it the whole. -/
theorem eval_of_not_allFit {t : WholeExpr} (h : ¬ t.AllFit) :
    t.expr.eval = .error (.type .overflow) := by
  induction t with
  | literal n => exact absurd (allFit_literal n) h
  | neg t ih =>
    rw [expr, Expr.eval]
    by_cases ht : t.AllFit
    · obtain ⟨n, hn, hvalue⟩ := eval_of_allFit ht
      rw [hn]
      show exact (-n.toInt) = _
      rw [hvalue]
      apply exact_of_not_fits
      intro hfits
      exact h (allFit_neg_iff.2 ⟨hfits, ht⟩)
    · rw [ih ht]
      rfl
  | arith op l r ihl ihr =>
    rw [expr, Expr.eval]
    by_cases hl : l.AllFit
    · obtain ⟨a, ha, havalue⟩ := eval_of_allFit hl
      rw [ha]
      by_cases hr : r.AllFit
      · obtain ⟨b, hb, hbvalue⟩ := eval_of_allFit hr
        rw [hb]
        show Formula.arith op.arithmetic (.int a) (.int b) = _
        rw [arith_whole, havalue, hbvalue]
        apply exact_of_not_fits
        intro hfits
        exact h (allFit_arith_iff.2 ⟨hfits, hl, hr⟩)
      · rw [ihr hr]
        rfl
    · rw [ihl hl]
      rfl

end WholeExpr

/-- **Integers are exact or refused.** An expression of integers, signs, sums, differences and
products evaluates to an integer exactly if the exact values of all its parts fit 64 bits, and then
to its exact value. In every other case it overflows. -/
theorem eval_exact_or_refused (t : WholeExpr) :
    ((∃ n : Int64, t.expr.eval = .ok (.int n)) ↔ ∀ s ∈ t.parts, Fits s.value) ∧
      (∀ n : Int64, t.expr.eval = .ok (.int n) → n.toInt = t.value) ∧
      ((¬ ∃ n : Int64, t.expr.eval = .ok (.int n)) → t.expr.eval = .error (.type .overflow)) := by
  by_cases h : t.AllFit
  · obtain ⟨m, hm, hvalue⟩ := WholeExpr.eval_of_allFit h
    refine ⟨iff_of_true ⟨m, hm⟩ h, fun n hn => ?_, fun hnone => absurd ⟨m, hm⟩ hnone⟩
    rw [hm] at hn
    cases hn
    exact hvalue
  · have herror := WholeExpr.eval_of_not_allFit h
    rw [herror]
    refine ⟨iff_of_false ?_ h, fun n hn => ?_, fun _ => rfl⟩
    · intro hok
      obtain ⟨n, hn⟩ := hok
      cases hn
    · cases hn

/-- The least integer is reached by a difference. Past the greatest one there is no way back. -/
theorem eval_exact_or_refused_limits :
    (∃ n : Int64, (Expr.arith .sub (.neg (.literal (.int 9223372036854775807)))
        (.literal (.int 1))).eval = .ok (.int n) ∧ n.toInt = -2 ^ 63) ∧
      (Expr.arith .sub (.arith .add (.literal (.int 9223372036854775807)) (.literal (.int 1)))
        (.literal (.int 1))).eval = .error (.type .overflow) := by
  let least : WholeExpr := .arith .sub (.neg (.literal 9223372036854775807)) (.literal 1)
  let past : WholeExpr :=
    .arith .sub (.arith .add (.literal 9223372036854775807) (.literal 1)) (.literal 1)
  have hleast : ∀ s ∈ least.parts, Fits s.value := by decide +kernel
  have hpast : ¬ ∀ s ∈ past.parts, Fits s.value := by decide +kernel
  obtain ⟨hiff, hvalue, -⟩ := eval_exact_or_refused least
  obtain ⟨n, hn⟩ := hiff.2 hleast
  obtain ⟨hiff', -, hrefused⟩ := eval_exact_or_refused past
  exact ⟨⟨n, hn, hvalue n hn⟩, hrefused (hiff'.not.2 hpast)⟩

/-! ## Remainders -/

/-- The remainder of the quotient that is rounded down. -/
def floorRemainder (a b : Int) : Int := a - b * ⌊(a : ℚ) / b⌋

/-- A remainder stands between nothing and the divisor. -/
def Under (k b : Int) : Prop := 0 ≤ k ∧ k < b ∨ b < k ∧ k ≤ 0

theorem Under.sign {k b : Int} (h : Under k b) : k = 0 ∨ k.sign = b.sign := by
  obtain hk | hk | hk := Int.lt_trichotomy k 0
  · have hb : b < 0 := by
      unfold Under at h
      omega
    rw [Int.sign_eq_neg_one_of_neg hk, Int.sign_eq_neg_one_of_neg hb]
    exact .inr rfl
  · exact .inl hk
  · have hb : 0 < b := by
      unfold Under at h
      omega
    rw [Int.sign_eq_one_of_pos hk, Int.sign_eq_one_of_pos hb]
    exact .inr rfl

theorem Under.natAbs_lt {k b : Int} (h : Under k b) : k.natAbs < b.natAbs := by
  unfold Under at h
  omega

/-- The quotient with such a remainder is the one rounded down. -/
theorem floorRemainder_eq {a b q k : Int} (h : a = b * q + k) (hk : Under k b) :
    floorRemainder a b = k := by
  have hfloor : ⌊(a : ℚ) / b⌋ = q := by
    rw [Int.floor_eq_iff]
    obtain ⟨hle, hlt⟩ | ⟨hlt, hle⟩ := hk
    · have hb : (0 : ℚ) < b := by exact_mod_cast hle.trans_lt hlt
      rw [le_div_iff₀ hb, div_lt_iff₀ hb]
      norm_cast
      constructor <;> linarith
    · have hb : (b : ℚ) < 0 := by exact_mod_cast hlt.trans_le hle
      rw [le_div_iff_of_neg hb, div_lt_iff_of_neg hb]
      norm_cast
      constructor <;> linarith
  rw [floorRemainder, hfloor]
  omega

/-- The remainder without its correction: smaller than the divisor, on either side of nothing. -/
theorem exists_toInt_mod (a b : Int64) (hb : b ≠ 0) :
    ∃ q, a.toInt = b.toInt * q + (a % b).toInt ∧ (a % b).toInt.natAbs < b.toInt.natAbs := by
  have hb' : b.toInt ≠ 0 := by
    rw [← Int64.toInt_zero, ne_eq, Int64.toInt_inj]
    exact hb
  refine ⟨a.toInt.tdiv b.toInt, ?_, ?_⟩
  · rw [Int64.toInt_mod, Int.mul_tdiv_add_tmod]
  · rw [Int64.toInt_mod, Int.natAbs_tmod]
    exact Nat.mod_lt _ (Int.natAbs_pos.2 hb')

/-- The correction goes towards nothing, so it does not overflow. -/
theorem toInt_add_of_opposite {a b : Int64} (h : a.toInt < 0 ∧ 0 ≤ b.toInt ∨ 0 ≤ a.toInt ∧ b.toInt < 0) :
    (a + b).toInt = a.toInt + b.toInt := by
  have ha := a.le_toInt
  have ha' := a.toInt_lt
  have hb := b.le_toInt
  have hb' := b.toInt_lt
  rw [Int64.toInt_add]
  apply Int.bmod_eq_of_le <;> omega

theorem exists_toInt_remainder (a b : Int64) (hb : b ≠ 0) :
    ∃ q, a.toInt = b.toInt * q + (remainder a b).toInt ∧ Under (remainder a b).toInt b.toInt := by
  obtain ⟨q, hq, hlt⟩ := exists_toInt_mod a b hb
  have hrest : remainder a b = if a % b ≠ 0 ∧ decide (a % b < 0) ≠ decide (b < 0) then a % b + b
    else a % b := rfl
  have hzero : a % b ≠ 0 ↔ (a % b).toInt ≠ 0 := by
    rw [← Int64.toInt_zero, ne_eq, ne_eq, Int64.toInt_inj]
  have hsign : decide (a % b < 0) ≠ decide (b < 0) ↔ ¬ ((a % b).toInt < 0 ↔ b.toInt < 0) := by
    rw [ne_eq, decide_eq_decide, Int64.lt_iff_toInt_lt, Int64.lt_iff_toInt_lt, Int64.toInt_zero]
  rw [hrest]
  split
  case isTrue h =>
    obtain ⟨hne, hopposite⟩ := h
    rw [hzero] at hne
    rw [hsign] at hopposite
    have hsum : (a % b + b).toInt = (a % b).toInt + b.toInt := toInt_add_of_opposite (by omega)
    refine ⟨q - 1, ?_, ?_⟩
    · rw [hsum, Int.mul_sub, Int.mul_one]
      omega
    · rw [hsum, Under]
      omega
  case isFalse h =>
    rw [hzero, hsign] at h
    refine ⟨q, hq, ?_⟩
    unfold Under
    omega

theorem eval_rem {l r : Expr} {a b : Int64} (hl : l.eval = .ok (.int a))
    (hr : r.eval = .ok (.int b)) : (Expr.arith .rem l r).eval = intArith .rem a b := by
  rw [Expr.eval, hl, hr]
  rfl

/-- **A remainder is that of the quotient rounded down.** It is nothing or has the sign of the
divisor, and is smaller than it. It always fits, and is returned for every two integers but the
least one and minus one. By zero there is none. -/
theorem rem_floors {l r : Expr} {a b : Int64} (hl : l.eval = .ok (.int a))
    (hr : r.eval = .ok (.int b)) :
    (b = 0 → (Expr.arith .rem l r).eval = .error .divisionByZero) ∧
      (b ≠ 0 → ∃ n : Int64, n.toInt = floorRemainder a.toInt b.toInt ∧
        (n.toInt = 0 ∨ n.toInt.sign = b.toInt.sign) ∧ n.toInt.natAbs < b.toInt.natAbs ∧
        (Expr.arith .rem l r).eval =
          if a = Int64.minValue ∧ b = -1 then .error (.type .overflow) else .ok (.int n)) := by
  rw [eval_rem hl hr]
  constructor
  · intro hb
    exact if_pos hb
  · intro hb
    obtain ⟨q, hq, hunder⟩ := exists_toInt_remainder a b hb
    exact ⟨remainder a b, (floorRemainder_eq hq hunder).symm, hunder.sign, hunder.natAbs_lt,
      if_neg hb⟩

theorem rem_floors_negative :
    (Expr.neg (.literal (.int 7))).eval = .ok (.int (-7)) ∧ floorRemainder (-7) 3 = 2 ∧
      (Expr.arith .rem (.neg (.literal (.int 7))) (.literal (.int 3))).eval = .ok (.int 2) := by
  have hl : (Expr.neg (.literal (.int 7))).eval = .ok (.int (-7)) := by
    rw [Expr.eval, Expr.eval]
    rfl
  have hr : (Expr.literal (.int 3)).eval = .ok (.int 3) := by rw [Expr.eval]
  have hvalue : floorRemainder (-7 : Int64).toInt (3 : Int64).toInt = 2 := by decide +kernel
  obtain ⟨n, hn, -, -, heval⟩ := (rem_floors hl hr).2 (by decide)
  have htwo : n = 2 := by
    rw [← Int64.toInt_inj, hn, hvalue]
    rfl
  rw [htwo] at heval
  exact ⟨hl, hvalue, heval⟩

/-- The least integer by minus one leaves nothing, and yet there is no remainder. -/
theorem evaluate_rem_refused :
    ∃ l r, parse "-4611686018427387904*2%-1" = .ok (.arith .rem l r) ∧
      l.eval = .ok (.int Int64.minValue) ∧ r.eval = .ok (.int (-1)) ∧
      floorRemainder Int64.minValue.toInt (-1) = 0 ∧
      evaluate "-4611686018427387904*2%-1" =
        .error ⟨"-4611686018427387904*2%-1", .type .overflow⟩ := by
  have hs : Cuts "-4611686018427387904*2%-1".toList [.token .minus ['-'],
      .token (.int 4611686018427387904) "4611686018427387904".toList, .token .star ['*'],
      .token (.int 2) ['2'], .token .percent ['%'], .token .minus ['-'], .token (.int 1) ['1']] := by
    refine .token (t := ⟨.minus, [], "4611686018427387904*2%-1".toList⟩) rfl rfl ?_
    refine .token (t := ⟨.int 4611686018427387904, "611686018427387904".toList, _⟩) rfl rfl ?_
    refine .token (t := ⟨.star, [], "2%-1".toList⟩) rfl rfl ?_
    refine .token (t := ⟨.int 2, [], "%-1".toList⟩) rfl rfl ?_
    refine .token (t := ⟨.percent, [], "-1".toList⟩) rfl rfl ?_
    refine .token (t := ⟨.minus, [], "1".toList⟩) rfl rfl ?_
    exact .token (t := ⟨.int 1, [], []⟩) rfl rfl .nil
  have hproduct : Chained .product [.minus, .int 4611686018427387904, .star, .int 2]
      (.arith .mul (.neg (.literal (.int 4611686018427387904))) (.literal (.int 2))) 1 1 :=
    .link .product (.first .product (.neg ((Makes.int 4611686018427387904).derives .unary)))
      (.mul _ _) ((Makes.int 2).derives .unary)
  have hrem : Chained .product
      [.minus, .int 4611686018427387904, .star, .int 2, .percent, .minus, .int 1]
      (.arith .rem _ (.neg (.literal (.int 1)))) 2 3 :=
    .link .product hproduct (.rem _ _) (.neg ((Makes.int 1).derives .unary))
  have hd : Derives (.chain .or)
      [.minus, .int 4611686018427387904, .star, .int 2, .percent, .minus, .int 1] _ 3 :=
    .chain (.first .or (.chain (.first .and (.comparison (.sum (.chain (.first .sum
      (.chain hrem))))))))
  have hparse := (parse_eq_ok_iff_derives hs).2 ⟨3, by decide, hd⟩
  have hl : (Expr.arith .mul (.neg (.literal (.int 4611686018427387904)))
      (.literal (.int 2))).eval = .ok (.int Int64.minValue) := by
    let least : WholeExpr := .arith .mul (.neg (.literal 4611686018427387904)) (.literal 2)
    have hfit : ∀ s ∈ least.parts, Fits s.value := by decide +kernel
    obtain ⟨n, hn, hvalue⟩ := WholeExpr.eval_of_allFit (t := least) hfit
    obtain rfl : n = Int64.minValue := by
      rw [← Int64.toInt_inj, hvalue, Int64.toInt_minValue]
      decide +kernel
    exact hn
  have hr : (Expr.neg (.literal (.int 1))).eval = .ok (.int (-1)) := by
    simp only [Expr.eval]
    rfl
  have hrefused : intArith .rem Int64.minValue (-1) = .error (.type .overflow) := by
    rw [intArith, if_neg (by decide), if_pos ⟨rfl, rfl⟩]
  exact ⟨_, _, hparse, hl, hr, by decide +kernel,
    evaluate_of_parse hparse ((eval_rem hl hr).trans hrefused)⟩

end GuardTree.Formula
