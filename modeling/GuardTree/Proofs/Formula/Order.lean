import GuardTree.Formula.Eval
import GuardTree.Proofs.Decimal.FloatOfInt
import GuardTree.Proofs.Formula.GuardShape

/-! # The order of values

Equality of two integers is exact, but they are ordered as floating-point numbers, that is as the
nearest integers of 53 binary digits are (`order_int`). So two integers are `Consistent`, their six
comparisons being those of their order, exactly if they are equal or stay apart as floating-point
numbers. Texts and truth values always are.
-/

namespace GuardTree.Formula

set_option autoImplicit false

open Decimal (nearestInt)

/-- The value of a comparison of two values. -/
def compared (l : Value) (op : Comparison) (r : Value) : Except Fault Value :=
  (Expr.compare (.literal l) [(op, .literal r)]).eval

/-- The comparisons of two values come to an order of them, and to whether they are the same. -/
structure Decides (l r : Value) (o : Ordering) (same : Bool) : Prop where
  lt : compared l .lt r = .ok (.bool (o == .lt))
  le : compared l .le r = .ok (.bool (o != .gt))
  gt : compared l .gt r = .ok (.bool (o == .gt))
  ge : compared l .ge r = .ok (.bool (o != .lt))
  eq : compared l .eq r = .ok (.bool same)
  ne : compared l .ne r = .ok (.bool !same)

/-- All comparisons of two values are those of one order. So exactly one of `<`, `==` and `>` holds,
`<=` holds if one of the first two does, and `>=` if one of the last two does. -/
def Consistent (l r : Value) (o : Ordering) : Prop := Decides l r o (o == .eq)

theorem compared_eq_map (l : Value) (op : Comparison) (r : Value) :
    compared l op r = (compare op l r).map .bool := by
  have hlink : evalLinks l [(op, .literal r)] = compare op l r := by
    rw [evalLinks, Expr.eval]
    show (do if ← compare op l r then evalLinks r [] else return false) = compare op l r
    cases compare op l r with
    | error fault => rfl
    | ok holds => cases holds <;> rfl
  rw [compared, Expr.eval, Expr.eval]
  show (do return Value.bool (← evalLinks l [(op, .literal r)])) = _
  rw [hlink]
  cases compare op l r <;> rfl

theorem decides_of_order {l r : Value} {o : Ordering} (h : order l r = .ok o) :
    Decides l r o (l.equal r) := by
  constructor <;> rw [compared_eq_map] <;> simp [compare, h, Except.map]

/-- What the comparisons come to tells the order. -/
theorem Decides.unique {l r : Value} {o o' : Ordering} {same same' : Bool}
    (h : Decides l r o same) (h' : Decides l r o' same') : o = o' := by
  have hlt := h.lt.symm.trans h'.lt
  have hgt := h.gt.symm.trans h'.gt
  simp only [Except.ok.injEq, Value.bool.injEq] at hlt hgt
  cases o <;> cases o' <;> simp_all

/-! ## Texts and truth values -/

theorem consistent_str (a b : String) : Consistent (.str a) (.str b) (Ord.compare a b) := by
  have horder : order (.str a) (.str b) = .ok (Ord.compare a b) := rfl
  have hsame : (Value.str a).equal (.str b) = (Ord.compare a b == .eq) := by
    rw [Bool.eq_iff_iff, beq_iff_eq, compare_eq_iff_eq]
    exact beq_iff_eq
  rw [Consistent, ← hsame]
  exact decides_of_order horder

theorem consistent_bool (a b : Bool) : Consistent (.bool a) (.bool b) (Ord.compare a b) := by
  have horder : order (.bool a) (.bool b) = .ok (Ord.compare a b) := by
    cases a <;> cases b <;> rfl
  have hsame : (Value.bool a).equal (.bool b) = (Ord.compare a b == .eq) := by
    cases a <;> cases b <;> rfl
  rw [Consistent, ← hsame]
  exact decides_of_order horder

/-! ## Integers -/

theorem log2_natAbs_lt (n : Int64) : n.toInt.natAbs.log2 < 1023 := by
  have hle := n.toInt_lt
  have hge := n.le_toInt
  by_cases hn : n.toInt.natAbs = 0
  · rw [hn]
    decide
  · rw [Nat.log2_lt hn]
    calc n.toInt.natAbs ≤ 2 ^ 63 := by omega
      _ < 2 ^ 1023 := Nat.pow_lt_pow_right one_lt_two (by decide)

/-- Two integers are ordered as the nearest ones of 53 digits. -/
theorem order_int (a b : Int64) :
    order (.int a) (.int b) = .ok (Ord.compare (nearestInt a.toInt) (nearestInt b.toInt)) := by
  have ha := log2_natAbs_lt a
  have hb := log2_natAbs_lt b
  have hlt := Decimal.ofInt_lt_iff ha hb
  have hgt := Decimal.ofInt_lt_iff hb ha
  have heq := Decimal.ofInt_beq_iff ha hb
  show (if Float.ofInt a.toInt < Float.ofInt b.toInt then Except.ok Ordering.lt
    else if Float.ofInt a.toInt == Float.ofInt b.toInt then .ok .eq
    else if Float.ofInt b.toInt < Float.ofInt a.toInt then .ok .gt
    else .error (Fault.type .cannotOrderNaN)) = _
  obtain h | h | h := lt_trichotomy (nearestInt a.toInt) (nearestInt b.toInt)
  · rw [if_pos (hlt.2 h), compare_lt_iff_lt.2 h]
  · rw [if_neg (hlt.not.2 h.not_lt), if_pos (heq.2 h), compare_eq_iff_eq.2 h]
  · rw [if_neg (hlt.not.2 h.not_gt), if_neg (heq.not.2 h.ne'), if_pos (hgt.2 h),
      compare_gt_iff_gt.2 h]

theorem decides_int (a b : Int64) :
    Decides (.int a) (.int b) (Ord.compare (nearestInt a.toInt) (nearestInt b.toInt)) (a == b) :=
  decides_of_order (order_int a b)

/-- Numbers that stay apart stay in order. -/
theorem compare_nearestInt {a b : Int} (h : nearestInt a ≠ nearestInt b) :
    Ord.compare (nearestInt a) (nearestInt b) = Ord.compare a b := by
  obtain hlt | rfl | hgt := lt_trichotomy a b
  · have hnear : nearestInt a < nearestInt b := (Decimal.nearestInt_mono hlt.le).lt_of_ne h
    rw [compare_lt_iff_lt.2 hlt, compare_lt_iff_lt.2 hnear]
  · exact absurd rfl h
  · have hnear : nearestInt b < nearestInt a := (Decimal.nearestInt_mono hgt.le).lt_of_ne' h
    rw [compare_gt_iff_gt.2 hgt, compare_gt_iff_gt.2 hnear]

theorem beq_eq_compare (a b : Int64) : (a == b) = (Ord.compare a.toInt b.toInt == .eq) := by
  rw [Bool.eq_iff_iff, beq_iff_eq, beq_iff_eq, compare_eq_iff_eq, Int64.toInt_inj]

theorem consistent_int_iff (a b : Int64) :
    Consistent (.int a) (.int b) (Ord.compare a.toInt b.toInt) ↔
      a = b ∨ nearestInt a.toInt ≠ nearestInt b.toInt := by
  have hdecides := decides_int a b
  have hsame := beq_eq_compare a b
  constructor
  · intro hconsistent
    by_contra! h
    obtain ⟨hne, hnear⟩ := h
    -- Neither `<` nor `>` holds of numbers that have come together, so the order is that of equals.
    have horder := hconsistent.unique hdecides
    rw [compare_eq_iff_eq.2 hnear, compare_eq_iff_eq, Int64.toInt_inj] at horder
    exact hne horder
  · rintro (rfl | hne)
    · have hself : Ord.compare (nearestInt a.toInt) (nearestInt a.toInt) = .eq :=
        compare_eq_iff_eq.2 rfl
      rw [hself, hsame, compare_eq_iff_eq.2 rfl] at hdecides
      rw [Consistent, compare_eq_iff_eq.2 rfl]
      exact hdecides
    · rw [compare_nearestInt hne, hsame] at hdecides
      exact hdecides

/-! ## Values of one kind -/

/-- The order of two integers, two texts or two truth values. -/
def Value.compare? : Value → Value → Option Ordering
  | .int a, .int b => some (Ord.compare a.toInt b.toInt)
  | .str a, .str b => some (Ord.compare a b)
  | .bool a, .bool b => some (Ord.compare a b)
  | _, _ => .none

/-- Two integers that are not the same have not come together by rounding. -/
def StaysApart : Value → Value → Prop
  | .int a, .int b => a = b ∨ nearestInt a.toInt ≠ nearestInt b.toInt
  | _, _ => True

variable {l r : Value} {o : Ordering}

theorem Consistent.exists_decides (h : Consistent l r o) :
    ∃ o', Decides l r o' (o == .eq) ∧ (o' = o ∨ o' = .eq) :=
  ⟨o, h, .inl rfl⟩

theorem exists_decides_int (a b : Int64) :
    ∃ o', Decides (.int a) (.int b) o' (Ord.compare a.toInt b.toInt == .eq) ∧
      (o' = Ord.compare a.toInt b.toInt ∨ o' = .eq) := by
  refine ⟨_, beq_eq_compare a b ▸ decides_int a b, ?_⟩
  by_cases h : nearestInt a.toInt = nearestInt b.toInt
  · exact .inr (compare_eq_iff_eq.2 h)
  · exact .inl (compare_nearestInt h)

theorem staysApart_of_small
    (h : ∀ n, l = .int n ∨ r = .int n → n.toInt.natAbs ≤ 2 ^ 53) : StaysApart l r := by
  unfold StaysApart
  split
  case h_1 a b =>
    rw [Decimal.nearestInt_of_le (h a (.inl rfl)), Decimal.nearestInt_of_le (h b (.inr rfl)),
      ne_eq, Int64.toInt_inj]
    exact em _
  case h_2 => trivial

/-- **Texts and truth values are totally ordered by the comparisons, integers up to rounding.** No
comparison of two values of one of these kinds fails; `==` and `!=` tell whether they are the same,
and the other four come to their order, or to that of equals. All six are consistent with the order
exactly if the values are no integers, or the same integer, or integers whose nearest ones of 53
binary digits differ, as those up to `2 ^ 53` do. -/
theorem comparisons_ordered (h : l.compare? r = some o) :
    (∃ o', Decides l r o' (o == .eq) ∧ (o' = o ∨ o' = .eq)) ∧
      (Consistent l r o ↔ StaysApart l r) ∧
      ((∀ n, l = .int n ∨ r = .int n → n.toInt.natAbs ≤ 2 ^ 53) → Consistent l r o) := by
  have hvalues : (∃ o', Decides l r o' (o == .eq) ∧ (o' = o ∨ o' = .eq)) ∧
      (Consistent l r o ↔ StaysApart l r) := by
    unfold Value.compare? at h
    split at h
    case h_1 a b =>
      obtain rfl := Option.some.inj h
      exact ⟨exists_decides_int a b, consistent_int_iff a b⟩
    case h_2 a b =>
      obtain rfl := Option.some.inj h
      exact ⟨(consistent_str a b).exists_decides, iff_of_true (consistent_str a b) trivial⟩
    case h_3 a b =>
      obtain rfl := Option.some.inj h
      exact ⟨(consistent_bool a b).exists_decides, iff_of_true (consistent_bool a b) trivial⟩
    case h_4 => cases h
  exact ⟨hvalues.1, hvalues.2, fun hsmall => hvalues.2.2 (staysApart_of_small hsmall)⟩

/-- Past `2 ^ 53` neighbours come together, but not these two. -/
theorem comparisons_ordered_large :
    (Value.int 9007199254740992).compare? (.int 9007199254740994) = some .lt ∧
      Consistent (.int 9007199254740992) (.int 9007199254740994) .lt := by
  have horder : (Value.int 9007199254740992).compare? (.int 9007199254740994) = some .lt := by
    decide +kernel
  have hapart : StaysApart (.int 9007199254740992) (.int 9007199254740994) := by
    refine .inr ?_
    decide +kernel
  exact ⟨horder, (comparisons_ordered horder).2.1.2 hapart⟩

theorem evaluate_of_compared {source : String} {segs : List Segment} {a b : Int64} {u : Token}
    {op : Comparison} {v : Value} (hs : Cuts source.toList segs)
    (hts : tokensOf segs = [.int a, u, .int b]) (hu : Compares [u] op)
    (h : compared (.int a) op (.int b) = .ok v) : evaluate source = .ok v :=
  evaluate_eq_ok_iff.2 ⟨_, parse_of_compares hs hts (.int a) hu (.int b), h⟩

/-- The first two integers that come together: neither is less than the other, and they are not
equal. -/
theorem evaluate_neighbours :
    evaluate "9007199254740992<9007199254740993" = .ok (.bool false) ∧
      compared (.int 9007199254740992) .eq (.int 9007199254740993) = .ok (.bool false) ∧
      compared (.int 9007199254740992) .gt (.int 9007199254740993) = .ok (.bool false) := by
  have hnear : nearestInt (9007199254740992 : Int64).toInt =
      nearestInt (9007199254740993 : Int64).toInt := by decide +kernel
  have hdecides := decides_int 9007199254740992 9007199254740993
  rw [compare_eq_iff_eq.2 hnear] at hdecides
  have hs : Cuts "9007199254740992<9007199254740993".toList
      [.token (.int 9007199254740992) "9007199254740992".toList, .token .lt ['<'],
        .token (.int 9007199254740993) "9007199254740993".toList] := by
    refine .token (t := ⟨.int 9007199254740992, "007199254740992".toList, _⟩) rfl rfl ?_
    refine .token (t := ⟨.lt, [], "9007199254740993".toList⟩) rfl rfl ?_
    exact .token (t := ⟨.int 9007199254740993, "007199254740993".toList, []⟩) rfl rfl .nil
  exact ⟨evaluate_of_compared hs rfl .lt hdecides.lt, hdecides.eq, hdecides.gt⟩

end GuardTree.Formula
