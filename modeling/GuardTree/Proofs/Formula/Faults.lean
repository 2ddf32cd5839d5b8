import GuardTree.Formula.Eval
import GuardTree.Proofs.Formula.FrontToken
import GuardTree.Proofs.Formula.Recognition
import GuardTree.Proofs.Placeholder.Occurrence

/-! # What can go wrong in evaluating an expression

An expression that has been read fails because of its values, or because of a placeholder among its
tokens (`Derives.fails`). Such a placeholder is one of the text, too, if its name is made of word
characters (`occursIn_of_mem_lexemes`); the lexer also takes names of other characters.
-/

namespace GuardTree.Formula

set_option autoImplicit false

open Placeholder Text

/-! ## Evaluation -/

/-- Values that do not fit. -/
def Fault.OfValues : Fault → Prop
  | .type _ => True
  | .divisionByZero => True
  | .malformed _ _ => False
  | .unresolvedVariable _ => False

/-- `FailsFor ts x`: where `x` fails, it is for values that do not fit or for a placeholder among the
tokens `ts`. -/
def FailsFor {α : Type} (ts : List Token) (x : Except Fault α) : Prop :=
  ∀ f, x = .error f → f.OfValues ∨ ∃ name, f = .unresolvedVariable name ∧ .var name ∈ ts

namespace FailsFor

variable {α β : Type} {ts us : List Token} {x : Except Fault α}

theorem ok (a : α) : FailsFor ts (.ok a : Except Fault α) := by
  intro f h
  cases h

theorem of_values {f : Fault} (hf : f.OfValues) : FailsFor ts (.error f : Except Fault α) := by
  intro g h
  cases h
  exact .inl hf

theorem mono (h : FailsFor ts x) (hts : ∀ t ∈ ts, t ∈ us) : FailsFor us x := fun f hf =>
  (h f hf).imp_right fun ⟨name, hn, hm⟩ => ⟨name, hn, hts _ hm⟩

theorem bind {k : α → Except Fault β} (h : FailsFor ts x) (hk : ∀ a, FailsFor ts (k a)) :
    FailsFor ts (x >>= k) := by
  cases x with
  | ok a => exact hk a
  | error g =>
    intro f hf
    cases hf
    exact h g rfl

theorem map (h : FailsFor ts x) (g : α → β) : FailsFor ts (x.map g) := by
  cases x with
  | ok a => exact ok (g a)
  | error f =>
    intro f' hf
    cases hf
    exact h f rfl

end FailsFor

variable {ts us : List Token} {e e' e'' : Expr} {n : Nat}

theorem order_fails (a b : Value) : FailsFor ts (order a b) := by
  unfold order
  split
  · exact .ok _
  · exact .ok _
  · split
    · split
      · exact .ok _
      · split
        · exact .ok _
        · split
          · exact .ok _
          · exact .of_values trivial
    · exact .of_values trivial

theorem contains_fails (a b : Value) : FailsFor ts (contains a b) := by
  unfold contains
  split
  · exact .ok _
  · exact .ok _
  · exact .of_values trivial

theorem compare_fails (op : Comparison) (a b : Value) : FailsFor ts (compare op a b) := by
  cases op with
  | eq => exact .ok _
  | ne => exact .ok _
  | elem => exact contains_fails b a
  | notElem => exact (contains_fails b a).map _
  | _ => exact (order_fails a b).map _

theorem exact_fails (k : Int) : FailsFor ts (exact k) := by
  unfold exact
  split
  · exact .ok _
  · exact .of_values trivial

theorem negate_fails (v : Value) : FailsFor ts (negate v) := by
  unfold negate
  split
  · exact exact_fails _
  · exact .ok _
  · exact .of_values trivial

theorem floatArith_fails (op : Arithmetic) (a b : Float) : FailsFor ts (floatArith op a b) := by
  unfold floatArith
  split
  · exact .ok _
  · exact .ok _
  · exact .ok _
  · split
    · exact .of_values trivial
    · exact .ok _
  · split
    · exact .of_values trivial
    · exact .ok _

theorem intArith_fails (op : Arithmetic) (a b : Int64) : FailsFor ts (intArith op a b) := by
  unfold intArith
  split
  · exact exact_fails _
  · exact exact_fails _
  · exact exact_fails _
  · exact floatArith_fails _ _ _
  · split
    · exact .of_values trivial
    · split
      · exact .of_values trivial
      · exact .ok _

theorem arith_fails (op : Arithmetic) (a b : Value) : FailsFor ts (arith op a b) := by
  unfold arith
  split
  · exact .ok _
  · exact intArith_fails _ _ _
  · refine FailsFor.bind ?_ fun _ => floatArith_fails _ _ _
    unfold floats
    split
    · exact .ok _
    · exact .of_values trivial

theorem Makes.fails {t : Token} (h : Makes t e) : FailsFor [t] e.eval := by
  cases h with
  | var name =>
    rw [Expr.eval]
    intro f hf
    cases hf
    exact .inr ⟨name, rfl, List.mem_singleton_self _⟩
  | _ =>
    rw [Expr.eval]
    exact .ok _

theorem Joins.fails {k : Chain} {t : Token} (hj : Joins k t e e' e'') (h : FailsFor ts e.eval)
    (h' : FailsFor ts e'.eval) : FailsFor ts e''.eval := by
  cases hj with
  | or =>
    rw [Expr.eval]
    refine h.bind fun v => ?_
    split
    · exact .ok v
    · exact h'
  | and =>
    rw [Expr.eval]
    refine h.bind fun v => ?_
    split
    · exact h'
    · exact .ok v
  | _ =>
    rw [Expr.eval]
    exact h.bind fun a => h'.bind fun b => arith_fails _ a b

mutual

theorem Derives.fails {l : Level} {ts : List Token} {e : Expr} {n : Nat} :
    Derives l ts e n → FailsFor ts e.eval
  | .chain h => h.fails
  | .not h => by
    rw [Expr.eval]
    exact (h.fails.mono fun _ => List.mem_cons_of_mem _).bind fun _ => .ok _
  | .comparison h => h.fails
  | .sum h => h.fails
  | .compare h hl _ => by
    rw [Expr.eval]
    refine FailsFor.bind (h.fails.mono fun _ => List.mem_append_left _) fun v => ?_
    exact FailsFor.bind ((hl.fails v).mono fun _ => List.mem_append_right _) fun _ => .ok _
  | .neg h => by
    rw [Expr.eval]
    exact (h.fails.mono fun _ => List.mem_cons_of_mem _).bind negate_fails
  | .primary h => h.fails
  | .single h => h.fails
  | .parens h => h.fails.mono fun _ ht => List.mem_cons_of_mem _ (List.mem_append_left _ ht)
  | .empty => by
    rw [Expr.eval, evalAll]
    exact .ok _
  | .list h => by
    rw [Expr.eval]
    exact FailsFor.bind (h.fails.mono fun _ ht =>
      List.mem_cons_of_mem _ (List.mem_append_left _ ht)) fun _ => .ok _

theorem Chained.fails {k : Chain} {ts : List Token} {e : Expr} {i n : Nat} :
    Chained k ts e i n → FailsFor ts e.eval
  | .first _ h => h.fails
  | .link _ h hj h' =>
    hj.fails (h.fails.mono fun _ => List.mem_append_left _)
      (h'.fails.mono fun _ ht => List.mem_append_right _ (List.mem_cons_of_mem _ ht))

theorem Compared.fails {ts : List Token} {ls : List (Comparison × Expr)} {n : Nat} :
    Compared ts ls n → ∀ lhs, FailsFor ts (evalLinks lhs ls)
  | .nil, lhs => by
    rw [evalLinks]
    exact .ok _
  | .cons _ h hl, lhs => by
    rw [evalLinks]
    refine FailsFor.bind (h.fails.mono fun _ ht =>
      List.mem_append_right _ (List.mem_append_left _ ht)) fun rhs => ?_
    refine (compare_fails _ lhs rhs).bind fun holds => ?_
    split
    · exact (hl.fails rhs).mono fun _ ht => List.mem_append_right _ (List.mem_append_right _ ht)
    · exact .ok _

theorem Listed.fails {ts : List Token} {es : List Expr} {n : Nat} :
    Listed ts es n → FailsFor ts (evalAll es)
  | .last h => by
    rw [evalAll, evalAll]
    exact h.fails.bind fun _ => .ok _
  | .trailing h => by
    rw [evalAll, evalAll]
    exact (h.fails.mono fun _ => List.mem_append_left _).bind fun _ => .ok _
  | .cons h hl => by
    rw [evalAll]
    refine (h.fails.mono fun _ => List.mem_append_left _).bind fun v => ?_
    exact FailsFor.bind (hl.fails.mono fun _ ht =>
      List.mem_append_right _ (List.mem_cons_of_mem _ ht)) fun _ => .ok _

end

/-! ## Placeholders of the lexer -/

/-- What a placeholder token consists of after its `$`. -/
theorem cutVar_ok {cs : List Char} {t : Cut} (h : cutVar cs = .ok t) :
    ∃ name, name ≠ [] ∧ (∀ c ∈ name, isNameChar c = true) ∧ t.token = .var (String.ofList name) ∧
      (cs = '\x7b' :: (name ++ '\x7d' :: t.rest) ∨ cs = name ++ t.rest) := by
  obtain ⟨name, hne, hname, ht, hm⟩ := cutVar_more h
  have happ := cutVar_append h
  refine ⟨name, hne, hname, ht, ?_⟩
  obtain hm | ⟨hm, -⟩ := hm <;> rw [hm] at happ
  · exact .inl (by simpa using happ.symm)
  · exact .inr happ.symm

/-- Where the name is made of word characters, the `$` also starts a placeholder of the text. -/
theorem exists_cut?_of_cutVar {cs : List Char} {t : Cut} {name : String} (h : cutVar cs = .ok t)
    (ht : t.token = .var name) (hw : ∀ c ∈ name.toList, isWordChar c = true) :
    ∃ p rest, cut? cs = some (p, rest) := by
  obtain ⟨chars, hne, hname, htoken, hcs⟩ := cutVar_ok h
  obtain rfl : String.ofList chars = name := by
    rw [ht] at htoken
    exact (Token.var.inj htoken).symm
  rw [String.toList_ofList] at hw
  obtain rfl | rfl := hcs
  · have hclose : isWordChar '\x7d' = false := by decide
    refine ⟨⟨String.ofList chars, true⟩, t.rest, ?_⟩
    simp [cut?, wordOf, afterWord, List.takeWhile_append_of_pos hw, List.dropWhile_append_of_pos hw,
      hclose, hne]
  · obtain ⟨c, chars, rfl⟩ := List.exists_cons_of_ne_nil hne
    have hopen : (c :: chars ++ t.rest).head? ≠ some '\x7b' := by
      rintro hc
      obtain rfl : c = '\x7b' := by simpa using hc
      exact absurd (hname _ List.mem_cons_self) (by decide)
    have hword : wordOf (c :: chars ++ t.rest) ≠ [] := by
      simp [wordOf, hw c List.mem_cons_self]
    rw [cut?_bare hopen, if_neg (by simpa using hword)]
    exact ⟨_, _, rfl⟩

theorem exists_cutVar_of_mem {offset : Nat} {cs : List Char} {ls : List Lexeme} {name : String}
    (h : lexemes offset cs = .ok ls) (hm : .var name ∈ ls.map Lexeme.token) :
    ∃ before rest t, cs = before ++ '$' :: rest ∧ cutVar rest = .ok t ∧ t.token = .var name := by
  fun_induction lexemes offset cs generalizing ls with
  | case1 =>
    cases h
    cases hm
  | case2 offset c r hc ih =>
    obtain ⟨before, rest, t, rfl, ht⟩ := ih h hm
    exact ⟨c :: before, rest, t, rfl, ht⟩
  | case3 => cases h
  | case4 offset c r hc t ht ih =>
    obtain ⟨others, ho, hls⟩ := bind_eq_ok_iff.1 h
    cases hls
    obtain heq | hm := List.mem_cons.1 hm
    · obtain rfl : c = '$' := by
        by_contra hv
        exact cut_token_ne_var ht hv name heq.symm
      exact ⟨[], r, t, rfl, ht, heq.symm⟩
    · obtain ⟨before, rest, t', hrest, ht'⟩ := ih ho hm
      refine ⟨c :: (t.more ++ before), rest, t', ?_, ht'⟩
      rw [← cut_append ht, hrest]
      simp

/-- A placeholder token is noticed before evaluation if its name is made of word characters. -/
theorem occursIn_of_mem_lexemes {text name : String} {ls : List Lexeme}
    (h : tokenize text = .ok ls) (hm : .var name ∈ ls.map Lexeme.token)
    (hw : ∀ c ∈ name.toList, isWordChar c = true) : Placeholder.occursIn text = true := by
  obtain ⟨before, rest, t, htext, hcut, ht⟩ := exists_cutVar_of_mem h hm
  obtain ⟨p, rest', hp⟩ := exists_cut?_of_cutVar hcut ht hw
  exact occursIn_of_cut? htext hp

theorem isNameChar_of_mem_lexemes {text name : String} {ls : List Lexeme}
    (h : tokenize text = .ok ls) (hm : .var name ∈ ls.map Lexeme.token) :
    ∀ c ∈ name.toList, isNameChar c = true := by
  obtain ⟨before, rest, t, -, hcut, ht⟩ := exists_cutVar_of_mem h hm
  obtain ⟨chars, -, hname, htoken, -⟩ := cutVar_ok hcut
  rw [ht] at htoken
  rw [Token.var.inj htoken, String.toList_ofList]
  exact hname

end GuardTree.Formula
