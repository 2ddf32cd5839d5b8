import GuardTree.Proofs.Formula.ComparisonChains
import GuardTree.Proofs.Reduction.GuardFaults

/-! # Guards whose value is no boolean

A key is a guard for its outermost construct alone. A connective is one, but yields an operand of any
kind, which may stand under further connectives. Only these operands can give a guard a value that is
no boolean (`guard_value_of_spine`).

* `Expr.spine`: what is left of an expression when its connectives are taken apart.
* `Expr.Test`: the expressions that have no other values than booleans.
-/

namespace GuardTree

set_option autoImplicit false

namespace Formula

/-- The operands of the connectives from the root on; an expression without is its own operand. -/
def Expr.spine : Expr → List Expr
  | .and l r => l.spine ++ r.spine
  | .or l r => l.spine ++ r.spine
  | e => [e]

inductive Expr.Test : Expr → Prop
  | compare (first : Expr) (links : List (Comparison × Expr)) : Test (.compare first links)
  | not (e : Expr) : Test (.not e)
  | bool (b : Bool) : Test (.literal (.bool b))

variable {k : Connective} {e l r : Expr} {v : Value}

theorem Expr.spine_join (k : Connective) (l r : Expr) :
    (k.join l r).spine = l.spine ++ r.spine := by
  cases k
  all_goals rw [Connective.join, spine]

/-! ## Values -/

theorem Expr.Test.eval_eq_ok (h : e.Test) (hv : e.eval = .ok v) : ∃ b, v = .bool b := by
  cases h with
  | compare first links => exact eval_compare_eq_ok hv
  | not e =>
    rw [Expr.eval] at hv
    obtain ⟨w, -, hv⟩ := bind_eq_ok_iff.1 hv
    cases hv
    exact ⟨_, rfl⟩
  | bool b =>
    rw [Expr.eval] at hv
    cases hv
    exact ⟨b, rfl⟩

theorem Expr.Test.bool?_ne_none (h : e.Test) (hv : e.eval = .ok v) : v.bool? ≠ none := by
  obtain ⟨b, rfl⟩ := h.eval_eq_ok hv
  exact Option.some_ne_none b

theorem eval_join_eq_or (k : Connective) (l r : Expr) :
    (k.join l r).eval = l.eval ∨ (k.join l r).eval = r.eval := by
  by_cases h : k.Passes l
  · exact .inr (eval_join_of_passes h)
  · exact .inl (eval_join_of_not_passes h)

theorem exists_mem_spine_join (hl : ∃ t ∈ l.spine, l.eval = t.eval)
    (hr : ∃ t ∈ r.spine, r.eval = t.eval) :
    ∃ t ∈ (k.join l r).spine, (k.join l r).eval = t.eval := by
  rw [Expr.spine_join]
  obtain ⟨t, ht, hl⟩ := hl
  obtain ⟨u, hu, hr⟩ := hr
  obtain heq | heq := eval_join_eq_or k l r
  · exact ⟨t, List.mem_append_left _ ht, heq.trans hl⟩
  · exact ⟨u, List.mem_append_right _ hu, heq.trans hr⟩

/-- An expression has the outcome of an operand on its spine. -/
theorem exists_mem_spine (e : Expr) : ∃ t ∈ e.spine, e.eval = t.eval := by
  induction e using Expr.spine.induct with
  | case1 l r hl hr => exact exists_mem_spine_join (k := .and) hl hr
  | case2 l r hl hr => exact exists_mem_spine_join (k := .or) hl hr
  | case3 e hand hor =>
    have hspine : e.spine = [e] := by rw [Expr.spine] <;> assumption
    exact ⟨e, hspine ▸ List.mem_singleton_self e, rfl⟩

/-! ## Kinds of guards -/

theorem Expr.isLogical_iff :
    e.isLogical = true ↔ e.Test ∨ ∃ (k : Connective) (l r : Expr), e = k.join l r := by
  constructor
  · intro h
    unfold isLogical at h
    split at h
    · exact .inl (.compare _ _)
    · exact .inr ⟨.and, _, _, rfl⟩
    · exact .inr ⟨.or, _, _, rfl⟩
    · exact .inl (.not _)
    · exact .inl (.bool _)
    · cases h
  · rintro (h | ⟨k, l, r, rfl⟩)
    · cases h
      all_goals rfl
    · cases k
      all_goals rfl

theorem isLogical_of_isGuard {key : String} (h : Engine.formulas.isGuard key = true)
    (hne : key ≠ otherwiseKey) (hp : parse key = .ok e) : e.isLogical = true := by
  rw [isGuard_of_parse hp] at h
  simpa [hne] using h

/-- A value that is no boolean belongs to an operand that is no test. -/
theorem exists_spine_of_not_bool (hv : e.eval = .ok v) (hb : v.bool? = none) :
    ∃ t ∈ e.spine, ¬ t.Test ∧ t.eval = .ok v := by
  obtain ⟨t, ht, heval⟩ := exists_mem_spine e
  rw [hv] at heval
  exact ⟨t, ht, fun htest => htest.bool?_ne_none heval.symm hb, heval.symm⟩

end Formula

namespace Engine

open Formula

theorem select_nonBooleanGuard {e : Engine} {policy : Policy} {entries : List (String × Node)}
    {guard : String} {value : Value}
    (h : (e.select policy entries).outcome = .error (.nonBooleanGuard guard value)) :
    guard ∈ entries.map Prod.fst ∧ guard ≠ otherwiseKey ∧ e.evaluate guard = .ok value ∧
      value.bool? = none := by
  obtain h | ⟨key, hm, h⟩ := select_error h
  · cases h
  rw [takesPart] at h
  split at h
  case isTrue => cases h
  case isFalse hne =>
    cases holds_error_iff.1 h with
    | value _ hvalue hbool => exact ⟨hm, hne, hvalue, hbool⟩

/-- **Only an operand of a connective makes the value of a guard anything but a boolean.** The value
of a guard is that of an operand on its spine, and a boolean if these are all tests. So where a
guarded mapping is refused for such a value, it is one of an operand that is no test, and the guard
is made by a connective. -/
theorem guard_value_of_spine :
    (∀ key, formulas.isGuard key = true → key ≠ otherwiseKey →
      ∃ e, parse key = .ok e ∧ ∀ v, formulas.evaluate key = .ok v →
        (∃ t ∈ e.spine, t.eval = .ok v) ∧ ((∀ t ∈ e.spine, t.Test) → ∃ b, v = .bool b)) ∧
    ∀ policy entries guard value,
      (formulas.select policy entries).outcome = .error (.nonBooleanGuard guard value) →
      guard ∈ entries.map Prod.fst ∧ guard ≠ otherwiseKey ∧
        ∃ e, parse guard = .ok e ∧
          (∃ t ∈ e.spine, ¬ t.Test ∧ t.eval = .ok value ∧ ∀ b, value ≠ .bool b) ∧
          (formulas.isGuard guard = true → ∃ (k : Connective) (l r : Expr), e = k.join l r) := by
  constructor
  · intro key hguard hne
    obtain ⟨e, hp⟩ := exists_parse_of_isGuard hguard hne
    refine ⟨e, hp, fun v hv => ?_⟩
    obtain ⟨e', hp', he⟩ := evaluate_eq_ok_iff.1 hv
    obtain rfl : e = e' := Except.ok.inj (hp.symm.trans hp')
    obtain ⟨t, ht, heval⟩ := exists_mem_spine e
    rw [he] at heval
    exact ⟨⟨t, ht, heval.symm⟩, fun htests => (htests t ht).eval_eq_ok heval.symm⟩
  · intro policy entries guard value h
    obtain ⟨hm, hne, hvalue, hbool⟩ := select_nonBooleanGuard h
    obtain ⟨e, hp, he⟩ := evaluate_eq_ok_iff.1 hvalue
    obtain ⟨t, ht, htest, heval⟩ := exists_spine_of_not_bool he hbool
    refine ⟨hm, hne, e, hp, ⟨t, ht, htest, heval, ?_⟩, fun hguard => ?_⟩
    · rintro b rfl
      cases hbool
    · obtain hroot | hroot := Expr.isLogical_iff.1 (isLogical_of_isGuard hguard hne hp)
      · exact absurd hbool (hroot.bool?_ne_none he)
      · exact hroot

/-- The value of a conjunction is that of its last operand here, and a number. -/
theorem guard_value_of_spine_number :
    formulas.isGuard "1 and 2" = true ∧
      (formulas.select .last [("1 and 2", .null)]).outcome =
        .error (.nonBooleanGuard "1 and 2" (.int 2)) ∧
      ∃ e, parse "1 and 2" = .ok e ∧ ∃ t ∈ e.spine, ¬ t.Test ∧ t.eval = .ok (.int 2) := by
  have hs : Cuts "1 and 2".toList [.token (.int 1) ['1'], .space ' ',
      .token .and ['a', 'n', 'd'], .space ' ', .token (.int 2) ['2']] := by
    refine .token (t := ⟨.int 1, [], " and 2".toList⟩) rfl rfl (.space rfl ?_)
    refine .token (t := ⟨.and, ['n', 'd'], " 2".toList⟩) rfl rfl (.space rfl ?_)
    exact .token (t := ⟨.int 2, [], []⟩) rfl rfl .nil
  have hparse : parse "1 and 2" = .ok (.and (.literal (.int 1)) (.literal (.int 2))) := by
    let one := (Makes.int 1).phrase Connective.and.chain.operand
    let two := (Makes.int 2).phrase Connective.and.chain.operand
    exact parse_leftNested hs (show tokensOf _ = Connective.and.written one [two] from rfl)
      (by decide)
  have hvalue : formulas.evaluate "1 and 2" = .ok (.int 2) :=
    evaluate_eq_ok_iff.2 ⟨_, hparse, rfl⟩
  have hselect : (formulas.select .last [("1 and 2", .null)]).outcome =
      .error (.nonBooleanGuard "1 and 2" (.int 2)) := by
    refine select_cons_of_error ?_
    rw [takesPart, if_neg (by decide)]
    exact holds_error_iff.2 (.value (by cbv) hvalue rfl)
  obtain ⟨-, -, e, he, ⟨t, ht, htest, heval, -⟩, -⟩ := guard_value_of_spine.2 _ _ _ _ hselect
  have hguard : formulas.isGuard "1 and 2" = true := by
    rw [isGuard_of_parse hparse]
    rfl
  exact ⟨hguard, hselect, e, he, t, ht, htest, heval⟩

end Engine

end GuardTree
