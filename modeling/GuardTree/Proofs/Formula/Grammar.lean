import GuardTree.Formula.Expr
import GuardTree.Formula.Parser

/-! # The grammar of guard expressions

`Derives l ts e n`: the tokens `ts` derive the expression `e` at level `l`, and the derivation
costs `n` levels of nesting. The tables of the grammar are relations of their own.

* `Chain.Over`: the levels of the operands of the chains.
* `Joins`, `Compares`, `Makes`: what operators and single tokens make.
* `Chained`: the chains, operand by operand from the left, with their number of operators. The
  operand after the `n`-th operator is read with `n` levels open.
* `Compared`, `Listed`: the links of comparison chains and the items of lists.
-/

namespace GuardTree.Formula

set_option autoImplicit false

/-! ## Tables -/

inductive Chain.Over : Chain → Level → Prop
  | or : Chain.Over .or (.chain .and)
  | and : Chain.Over .and .negation
  | sum : Chain.Over .sum (.chain .product)
  | product : Chain.Over .product .unary

/-- `Joins k t e e' e''`: in a chain, `t` between `e` and `e'` makes `e''` of them. -/
inductive Joins : Chain → Token → Expr → Expr → Expr → Prop
  | or (e e' : Expr) : Joins .or .or e e' (.or e e')
  | and (e e' : Expr) : Joins .and .and e e' (.and e e')
  | add (e e' : Expr) : Joins .sum .plus e e' (.arith .add e e')
  | sub (e e' : Expr) : Joins .sum .minus e e' (.arith .sub e e')
  | mul (e e' : Expr) : Joins .product .star e e' (.arith .mul e e')
  | div (e e' : Expr) : Joins .product .slash e e' (.arith .div e e')
  | rem (e e' : Expr) : Joins .product .percent e e' (.arith .rem e e')

inductive Compares : List Token → Comparison → Prop
  | eq : Compares [.eq] .eq
  | ne : Compares [.ne] .ne
  | lt : Compares [.lt] .lt
  | le : Compares [.le] .le
  | gt : Compares [.gt] .gt
  | ge : Compares [.ge] .ge
  | elem : Compares [.elem] .elem
  | notElem : Compares [.not, .elem] .notElem

/-- `Makes t e`: the token is an operand by itself. -/
inductive Makes : Token → Expr → Prop
  | int (n : Int64) : Makes (.int n) (.literal (.int n))
  | float (x : Float) : Makes (.float x) (.literal (.float x))
  | str (s : String) : Makes (.str s) (.literal (.str s))
  | true : Makes .true (.literal (.bool true))
  | false : Makes .false (.literal (.bool false))
  | none : Makes .none (.literal .none)
  | ident (name : String) : Makes (.ident name) (.ident name)
  | var (name : String) : Makes (.var name) (.var name)

/-! ## Derivations -/

mutual

inductive Derives : Level → List Token → Expr → Nat → Prop
  | chain {k : Chain} {ts : List Token} {e : Expr} {i n : Nat} (h : Chained k ts e i n) :
      Derives (.chain k) ts e n
  | not {ts : List Token} {e : Expr} {n : Nat} (h : Derives .negation ts e n) :
      Derives .negation (.not :: ts) (.not e) (1 + n)
  | comparison {ts : List Token} {e : Expr} {n : Nat} (h : Derives .comparison ts e n) :
      Derives .negation ts e n
  | sum {ts : List Token} {e : Expr} {n : Nat} (h : Derives (.chain .sum) ts e n) :
      Derives .comparison ts e n
  | compare {ts us : List Token} {e : Expr} {ls : List (Comparison × Expr)} {n m : Nat}
      (h : Derives (.chain .sum) ts e n) (hl : Compared us ls m) (hne : ls ≠ []) :
      Derives .comparison (ts ++ us) (.compare e ls) (max n m)
  | neg {ts : List Token} {e : Expr} {n : Nat} (h : Derives .unary ts e n) :
      Derives .unary (.minus :: ts) (.neg e) (1 + n)
  | primary {ts : List Token} {e : Expr} {n : Nat} (h : Derives .primary ts e n) :
      Derives .unary ts e n
  | single {t : Token} {e : Expr} (h : Makes t e) : Derives .primary [t] e 0
  | parens {ts : List Token} {e : Expr} {n : Nat} (h : Derives (.chain .or) ts e n) :
      Derives .primary (.lparen :: (ts ++ [.rparen])) e (1 + n)
  | empty : Derives .primary [.lbracket, .rbracket] (.list []) 1
  | list {ts : List Token} {es : List Expr} {n : Nat} (h : Listed ts es n) :
      Derives .primary (.lbracket :: (ts ++ [.rbracket])) (.list es) (1 + n)

inductive Chained : Chain → List Token → Expr → Nat → Nat → Prop
  | first {k : Chain} {l : Level} {ts : List Token} {e : Expr} {n : Nat} (hk : k.Over l)
      (h : Derives l ts e n) : Chained k ts e 0 n
  | link {k : Chain} {l : Level} {ts us : List Token} {t : Token} {e e' e'' : Expr} {i n m : Nat}
      (hk : k.Over l) (h : Chained k ts e i n) (hj : Joins k t e e' e'') (h' : Derives l us e' m) :
      Chained k (ts ++ t :: us) e'' (i + 1) (max n (i + 1 + m))

inductive Compared : List Token → List (Comparison × Expr) → Nat → Prop
  | nil : Compared [] [] 0
  | cons {os ts us : List Token} {op : Comparison} {e : Expr} {ls : List (Comparison × Expr)}
      {n m : Nat} (ho : Compares os op) (h : Derives (.chain .sum) ts e n)
      (hl : Compared us ls m) : Compared (os ++ (ts ++ us)) ((op, e) :: ls) (max n m)

inductive Listed : List Token → List Expr → Nat → Prop
  | last {ts : List Token} {e : Expr} {n : Nat} (h : Derives (.chain .or) ts e n) :
      Listed ts [e] n
  | trailing {ts : List Token} {e : Expr} {n : Nat} (h : Derives (.chain .or) ts e n) :
      Listed (ts ++ [.comma]) [e] n
  | cons {ts us : List Token} {e : Expr} {es : List Expr} {n m : Nat}
      (h : Derives (.chain .or) ts e n) (hl : Listed us es m) :
      Listed (ts ++ .comma :: us) (e :: es) (max n m)

end

/-! ## Looser levels -/

theorem Derives.exists_next {l : Level} {ts : List Token} {e : Expr} {n : Nat}
    (h : Derives l ts e n) (hl : l ≠ .chain .or) :
    ∃ l' : Level, l'.rank = l.rank + 1 ∧ Derives l' ts e n := by
  cases l with
  | primary => exact ⟨.unary, rfl, .primary h⟩
  | unary => exact ⟨.chain .product, rfl, .chain (.first .product h)⟩
  | comparison => exact ⟨.negation, rfl, .comparison h⟩
  | negation => exact ⟨.chain .and, rfl, .chain (.first .and h)⟩
  | chain k =>
    cases k with
    | product => exact ⟨.chain .sum, rfl, .chain (.first .sum h)⟩
    | sum => exact ⟨.comparison, rfl, .sum h⟩
    | and => exact ⟨.chain .or, rfl, .chain (.first .or h)⟩
    | or => exact absurd rfl hl

theorem Level.rank_le (l : Level) : l.rank ≤ (Level.chain .or).rank := by
  unfold Level.rank
  split <;> decide

theorem Level.rank_injective {l l' : Level} (h : l.rank = l'.rank) : l = l' := by
  unfold Level.rank at h
  split at h <;> split at h <;> first | rfl | cases h

/-- What is derived at a level is derived at the looser ones. -/
theorem Derives.mono {l l' : Level} {ts : List Token} {e : Expr} {n : Nat} (h : Derives l ts e n)
    (hl : l.rank ≤ l'.rank) : Derives l' ts e n := by
  obtain ⟨d, hd⟩ := Nat.exists_eq_add_of_le hl
  induction d generalizing l with
  | zero => rwa [Level.rank_injective hd]
  | succ d ih =>
    have hne : l ≠ .chain .or := by
      rintro rfl
      have hle := l'.rank_le
      omega
    obtain ⟨l₁, hrank, h₁⟩ := h.exists_next hne
    exact ih h₁ (by omega) (by omega)

theorem Derives.expression {l : Level} {ts : List Token} {e : Expr} {n : Nat}
    (h : Derives l ts e n) : Derives (.chain .or) ts e n :=
  h.mono l.rank_le

theorem Makes.derives {t : Token} {e : Expr} (h : Makes t e) (l : Level) : Derives l [t] e 0 :=
  (Derives.single h).mono (Nat.zero_le _)

/-! ## The tables and the parser's -/

theorem Chain.over_iff {k : Chain} {l : Level} : k.Over l ↔ l = k.operand := by
  constructor
  · intro h
    cases h <;> rfl
  · rintro rfl
    cases k <;> constructor

theorem Chain.Over.rank_lt {k : Chain} {l : Level} (h : k.Over l) :
    l.rank < (Level.chain k).rank := by
  rw [Chain.over_iff.1 h]
  exact k.operand_rank_lt

theorem joins_iff {k : Chain} {t : Token} {e e' e'' : Expr} :
    Joins k t e e' e'' ↔ ∃ join, k.join? t = some join ∧ e'' = join e e' := by
  constructor
  · intro h
    cases h <;> exact ⟨_, rfl, rfl⟩
  · rintro ⟨join, h, rfl⟩
    unfold Chain.join? at h
    split at h <;> cases h <;> constructor

theorem makes_iff {t : Token} {e : Expr} : Makes t e ↔ leaf? t = some e := by
  constructor
  · intro h
    cases h <;> rfl
  · intro h
    cases t <;> cases h <;> constructor

theorem comparison?_eq_some_iff {ls r : List Lexeme} {op : Comparison} :
    comparison? ls = some (op, r) ↔ ∃ os, Compares (os.map Lexeme.token) op ∧ ls = os ++ r := by
  constructor
  · intro h
    unfold comparison? at h
    split at h
    case h_1 => cases h
    case h_2 t r' =>
      split at h
      case h_8 ht =>
        split at h
        case h_2 => cases h
        case h_1 u r'' =>
          split at h
          case isFalse => cases h
          case isTrue hu =>
            cases h
            refine ⟨[t, u], ?_, rfl⟩
            rw [List.map_cons, List.map_cons, ht, hu]
            exact .notElem
      case h_9 => cases h
      all_goals
        rename_i ht
        cases h
        refine ⟨[t], ?_, rfl⟩
        rw [List.map_cons, ht]
        constructor
  · rintro ⟨os, ho, rfl⟩
    generalize hts : os.map Lexeme.token = ts at ho
    cases ho with
    | notElem =>
      obtain ⟨t, os', rfl, ht, hos⟩ := List.map_eq_cons_iff.1 hts
      obtain ⟨u, os'', rfl, hu, hnil⟩ := List.map_eq_cons_iff.1 hos
      rw [List.map_eq_nil_iff.1 hnil]
      simp [comparison?, ht, hu]
    | _ =>
      obtain ⟨t, os', rfl, ht, hnil⟩ := List.map_eq_cons_iff.1 hts
      rw [List.map_eq_nil_iff.1 hnil]
      simp [comparison?, ht]

/-! ## First tokens -/

/-- What is known of the first token of a derivation at level `l`. -/
def Starts (l : Level) (t : Token) : Prop :=
  t ≠ .rbracket ∧ (t = .not → Level.negation.rank ≤ l.rank) ∧
    (t = .minus → Level.unary.rank ≤ l.rank)

theorem Starts.mono {l l' : Level} {t : Token} (h : Starts l t) (hl : l.rank ≤ l'.rank) :
    Starts l' t :=
  ⟨h.1, fun ht => Nat.le_trans (h.2.1 ht) hl, fun ht => Nat.le_trans (h.2.2 ht) hl⟩

theorem Makes.starts {t : Token} {e : Expr} (h : Makes t e) : Starts .primary t := by
  cases h <;> simp [Starts]

mutual

theorem Derives.starts {l : Level} {ts : List Token} {e : Expr} {n : Nat} :
    Derives l ts e n → ∃ t us, ts = t :: us ∧ Starts l t
  | .chain h => h.starts
  | .not _ => ⟨_, _, rfl, by simp [Starts]⟩
  | .comparison h =>
    have ⟨t, us, ht, hs⟩ := h.starts
    ⟨t, us, ht, hs.mono (by decide)⟩
  | .sum h =>
    have ⟨t, us, ht, hs⟩ := h.starts
    ⟨t, us, ht, hs.mono (by decide)⟩
  | .compare h _ _ =>
    have ⟨t, us, ht, hs⟩ := h.starts
    ⟨t, us ++ _, congrArg (· ++ _) ht, hs.mono (by decide)⟩
  | .neg _ => ⟨_, _, rfl, by simp [Starts]⟩
  | .primary h =>
    have ⟨t, us, ht, hs⟩ := h.starts
    ⟨t, us, ht, hs.mono (by decide)⟩
  | .single h => ⟨_, _, rfl, h.starts⟩
  | .parens _ => ⟨_, _, rfl, by simp [Starts]⟩
  | .empty => ⟨_, _, rfl, by simp [Starts]⟩
  | .list _ => ⟨_, _, rfl, by simp [Starts]⟩

theorem Chained.starts {k : Chain} {ts : List Token} {e : Expr} {i n : Nat} :
    Chained k ts e i n → ∃ t us, ts = t :: us ∧ Starts (.chain k) t
  | .first hk h =>
    have ⟨t, us, ht, hs⟩ := h.starts
    ⟨t, us, ht, hs.mono (Nat.le_of_lt hk.rank_lt)⟩
  | .link _ h _ _ =>
    have ⟨t, us, ht, hs⟩ := h.starts
    ⟨t, us ++ _, congrArg (· ++ _) ht, hs⟩

end

end GuardTree.Formula
