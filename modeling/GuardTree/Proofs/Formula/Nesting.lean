import GuardTree.Proofs.Formula.GuardShape

/-! # How deep an expression can be nested

The budget of the parser is charged for the operators that have been read of a chain, and given back
when the chain ends. But a chain associates to the left, so its first operand, which was read before
any of them was charged, ends up below them all. So the budget bounds the cost of a derivation and
not the nesting of the expression.

* `Expr.nesting`: the levels of an expression, those of comparison chains and leaves not counted.
* `Expr.rightNesting`: those of them that the budget bounds (`Derives.rightNesting_le`).
* `deepest`: the greatest nesting that a cost allows, quadratic in it; `Derives.nesting_le` that it
  is a bound and `exists_deepest` that it is reached.
* `Opens`: how many levels are open at a time while a source is read.
-/

namespace GuardTree.Formula

set_option autoImplicit false

open Text

/-! ## Nesting -/

mutual

/-- The most levels on a way from the root to a leaf. Comparison chains and leaves are no levels. -/
def Expr.nesting : Expr → Nat
  | .literal _ => 0
  | .ident _ => 0
  | .var _ => 0
  | .list es => 1 + nestingOfAll es
  | .not e => 1 + e.nesting
  | .neg e => 1 + e.nesting
  | .and l r => 1 + max l.nesting r.nesting
  | .or l r => 1 + max l.nesting r.nesting
  | .compare first ls => max first.nesting (nestingOfLinks ls)
  | .arith _ l r => 1 + max l.nesting r.nesting

def nestingOfAll : List Expr → Nat
  | [] => 0
  | e :: es => max e.nesting (nestingOfAll es)

def nestingOfLinks : List (Comparison × Expr) → Nat
  | [] => 0
  | (_, e) :: ls => max e.nesting (nestingOfLinks ls)

end

mutual

/-- The most levels on a way from the root to a leaf that are not entered by the left operand of an
operator. -/
def Expr.rightNesting : Expr → Nat
  | .literal _ => 0
  | .ident _ => 0
  | .var _ => 0
  | .list es => 1 + rightNestingOfAll es
  | .not e => 1 + e.rightNesting
  | .neg e => 1 + e.rightNesting
  | .and l r => max l.rightNesting (1 + r.rightNesting)
  | .or l r => max l.rightNesting (1 + r.rightNesting)
  | .compare first ls => max first.rightNesting (rightNestingOfLinks ls)
  | .arith _ l r => max l.rightNesting (1 + r.rightNesting)

def rightNestingOfAll : List Expr → Nat
  | [] => 0
  | e :: es => max e.rightNesting (rightNestingOfAll es)

def rightNestingOfLinks : List (Comparison × Expr) → Nat
  | [] => 0
  | (_, e) :: ls => max e.rightNesting (rightNestingOfLinks ls)

end

theorem Makes.nesting_eq {t : Token} {e : Expr} (h : Makes t e) : e.nesting = 0 := by
  cases h <;> simp only [Expr.nesting]

theorem Joins.nesting_eq {k : Chain} {t : Token} {e e' e'' : Expr} (h : Joins k t e e' e'') :
    e''.nesting = 1 + max e.nesting e'.nesting := by
  cases h <;> simp only [Expr.nesting]

theorem Makes.rightNesting_eq {t : Token} {e : Expr} (h : Makes t e) : e.rightNesting = 0 := by
  cases h <;> simp only [Expr.rightNesting]

theorem Joins.rightNesting_eq {k : Chain} {t : Token} {e e' e'' : Expr} (h : Joins k t e e' e'') :
    e''.rightNesting = max e.rightNesting (1 + e'.rightNesting) := by
  cases h <;> simp only [Expr.rightNesting]

/-! ## What a cost allows -/

/-- The number of kinds of chains at a level and the tighter ones. -/
def Level.chains : Level → Nat
  | .primary => 0
  | .unary => 0
  | .chain .product => 1
  | .chain .sum => 2
  | .comparison => 2
  | .negation => 2
  | .chain .and => 3
  | .chain .or => 4

/-- The greatest nesting that is derived at cost `n` at a level with `w` kinds of chains. Each of
them puts up to `n` operators above its first operand. -/
def deepest (w n : Nat) : Nat := n * (2 * n - 1 + w)

theorem deepest_mono {w m n : Nat} (h : m ≤ n) : deepest w m ≤ deepest w n :=
  Nat.mul_le_mul h (by omega)

theorem max_le_deepest {w n m a b : Nat} (ha : a ≤ deepest w n) (hb : b ≤ deepest w m) :
    max a b ≤ deepest w (max n m) := by
  refine Nat.max_le.2 ⟨?_, ?_⟩
  · exact Nat.le_trans ha (deepest_mono (Nat.le_max_left n m))
  · exact Nat.le_trans hb (deepest_mono (Nat.le_max_right n m))

theorem deepest_chain (w n : Nat) : n + deepest w n = deepest (w + 1) n := by
  rw [deepest, deepest, ← Nat.add_assoc, Nat.mul_succ, Nat.add_comm]

theorem deepest_four (n : Nat) : deepest 4 n = n * (2 * n + 3) := by
  cases n with
  | zero => rfl
  | succ n => rw [deepest, show 2 * (n + 1) - 1 + 4 = 2 * (n + 1) + 3 by omega]

theorem deepest_enclosed (n : Nat) : 1 + deepest 4 n = deepest 0 (1 + n) := by
  cases n with
  | zero => rfl
  | succ n =>
    rw [deepest, deepest, show 2 * (n + 1) - 1 + 4 = 2 * n + 5 by omega,
      show 2 * (1 + (n + 1)) - 1 + 0 = 2 * n + 3 by omega]
    ring

theorem deepest_prefixed (w n : Nat) : 1 + deepest w n ≤ deepest w (1 + n) := by
  have hstep : n * (2 * n - 1 + w) ≤ n * (2 * (1 + n) - 1 + w) :=
    Nat.mul_le_mul_left n (by omega)
  rw [deepest, deepest, Nat.add_mul 1 n]
  omega

/-! ## The bounds -/

mutual

/-- An operand after the first is read with the level of its operator open. -/
theorem Derives.rightNesting_le {l : Level} {ts : List Token} {e : Expr} {n : Nat} :
    Derives l ts e n → e.rightNesting ≤ n
  | .chain h => h.rightNesting_le
  | .not h => by
    rw [Expr.rightNesting]
    exact Nat.add_le_add_left h.rightNesting_le 1
  | .comparison h => h.rightNesting_le
  | .sum h => h.rightNesting_le
  | .compare h hl _ => by
    have he := h.rightNesting_le
    have hls := hl.rightNesting_le
    rw [Expr.rightNesting]
    omega
  | .neg h => by
    rw [Expr.rightNesting]
    exact Nat.add_le_add_left h.rightNesting_le 1
  | .primary h => h.rightNesting_le
  | .single h => Nat.le_of_eq h.rightNesting_eq
  | .parens h => Nat.le_add_left_of_le h.rightNesting_le
  | .empty => by simp [Expr.rightNesting, rightNestingOfAll]
  | .list h => by
    rw [Expr.rightNesting]
    exact Nat.add_le_add_left h.rightNesting_le 1

theorem Chained.rightNesting_le {k : Chain} {ts : List Token} {e : Expr} {i n : Nat} :
    Chained k ts e i n → e.rightNesting ≤ n
  | .first _ h => h.rightNesting_le
  | .link _ h hj h' => by
    have he := h.rightNesting_le
    have he' := h'.rightNesting_le
    rw [hj.rightNesting_eq]
    omega

theorem Compared.rightNesting_le {ts : List Token} {ls : List (Comparison × Expr)} {n : Nat} :
    Compared ts ls n → rightNestingOfLinks ls ≤ n
  | .nil => Nat.zero_le _
  | .cons _ h hl => by
    have he := h.rightNesting_le
    have hls := hl.rightNesting_le
    rw [rightNestingOfLinks]
    omega

theorem Listed.rightNesting_le {ts : List Token} {es : List Expr} {n : Nat} :
    Listed ts es n → rightNestingOfAll es ≤ n
  | .last h => by
    rw [rightNestingOfAll, rightNestingOfAll, Nat.max_zero]
    exact h.rightNesting_le
  | .trailing h => by
    rw [rightNestingOfAll, rightNestingOfAll, Nat.max_zero]
    exact h.rightNesting_le
  | .cons h hl => by
    have he := h.rightNesting_le
    have hes := hl.rightNesting_le
    rw [rightNestingOfAll]
    omega

end

mutual

theorem Derives.nesting_le {l : Level} {ts : List Token} {e : Expr} {n : Nat} :
    Derives l ts e n → e.nesting ≤ deepest l.chains n
  | .chain (k := k) h => by
    obtain ⟨hi, he⟩ := h.nesting_le
    have hk : k.operand.chains + 1 = (Level.chain k).chains := by
      cases k <;> rfl
    rw [← hk, ← deepest_chain]
    omega
  | .not (n := n) h => by
    have he := h.nesting_le
    have hstep := deepest_prefixed 2 n
    simp only [Expr.nesting, Level.chains] at he ⊢
    omega
  | .comparison h => h.nesting_le
  | .sum h => h.nesting_le
  | .compare h hl _ => by
    rw [Expr.nesting]
    exact max_le_deepest h.nesting_le hl.nesting_le
  | .neg (n := n) h => by
    have he := h.nesting_le
    have hstep := deepest_prefixed 0 n
    simp only [Expr.nesting, Level.chains] at he ⊢
    omega
  | .primary h => h.nesting_le
  | .single h => by
    rw [h.nesting_eq]
    exact Nat.zero_le _
  | .parens (n := n) h => by
    have he := h.nesting_le
    have hstep := deepest_enclosed n
    simp only [Level.chains] at he ⊢
    omega
  | .empty => by simp [Expr.nesting, nestingOfAll, deepest]
  | .list (n := n) h => by
    have hes := h.nesting_le
    have hstep := deepest_enclosed n
    simp only [Expr.nesting, Level.chains]
    omega

/-- The operators of a chain stand above its first operand, and are no more than its cost. -/
theorem Chained.nesting_le {k : Chain} {ts : List Token} {e : Expr} {i n : Nat} :
    Chained k ts e i n → i ≤ n ∧ e.nesting ≤ i + deepest k.operand.chains n
  | .first hk h => by
    have he := h.nesting_le
    rw [Chain.over_iff.1 hk] at he
    omega
  | .link (i := i) (n := n) (m := m) hk h hj h' => by
    obtain ⟨hi, he⟩ := h.nesting_le
    have he' := h'.nesting_le
    rw [Chain.over_iff.1 hk] at he'
    have hn : deepest k.operand.chains n ≤ deepest k.operand.chains (max n (i + 1 + m)) :=
      deepest_mono (Nat.le_max_left _ _)
    have hm : deepest k.operand.chains m ≤ deepest k.operand.chains (max n (i + 1 + m)) :=
      deepest_mono (by omega)
    rw [hj.nesting_eq]
    omega

theorem Compared.nesting_le {ts : List Token} {ls : List (Comparison × Expr)} {n : Nat} :
    Compared ts ls n → nestingOfLinks ls ≤ deepest 2 n
  | .nil => Nat.zero_le _
  | .cons _ h hl => by
    rw [nestingOfLinks]
    exact max_le_deepest h.nesting_le hl.nesting_le

theorem Listed.nesting_le {ts : List Token} {es : List Expr} {n : Nat} :
    Listed ts es n → nestingOfAll es ≤ deepest 4 n
  | .last h => by
    rw [nestingOfAll, nestingOfAll, Nat.max_zero]
    exact h.nesting_le
  | .trailing h => by
    rw [nestingOfAll, nestingOfAll, Nat.max_zero]
    exact h.nesting_le
  | .cons h hl => by
    rw [nestingOfAll]
    exact max_le_deepest h.nesting_le hl.nesting_le

end

/-! ## The bound is reached -/

/-- A number needs something after it that ends it. -/
theorem spells_one : Spells ['1', ' '] [.int 1] :=
  fun r _ hr => ⟨_, .token (t := ⟨.int 1, [], ' ' :: r⟩) rfl rfl (.space rfl hr), rfl⟩

/-- An expression of the given nesting is derived at level `l` and cost `n` from the tokens of a
text. -/
def Occurs (l : Level) (n nesting : Nat) : Prop :=
  ∃ cs ts e, Spells cs ts ∧ Derives l ts e n ∧ e.nesting = nesting

/-- As many operators as the cost are put above an operand. -/
theorem Occurs.chain {k : Chain} {l : Level} {n nesting : Nat} (hk : k.Over l) {text : List Char}
    {t : Token} (ht : Spells text [t]) {join : Expr → Expr → Expr}
    (hj : ∀ e e', Joins k t e e' (join e e')) (h : Occurs l n nesting) :
    Occurs (.chain k) n (n + nesting) := by
  obtain ⟨cs, ts, e, hcs, hd, he⟩ := h
  have hlinks : ∀ i ≤ n, ∃ cs ts e,
      Spells cs ts ∧ Chained k ts e i n ∧ e.nesting = i + nesting := by
    intro i hi
    induction i with
    | zero => exact ⟨cs, ts, e, hcs, .first hk hd, by omega⟩
    | succ i ih =>
      obtain ⟨cs', ts', e', hcs', hd', he'⟩ := ih (by omega)
      have hone : Derives l [.int 1] (.literal (.int 1)) 0 := (Makes.int 1).derives l
      have hnext := Chained.link hk hd' (hj e' (.literal (.int 1))) hone
      rw [show max n (i + 1 + 0) = n by omega] at hnext
      refine ⟨_, _, _, hcs'.append (ht.append spells_one), hnext, ?_⟩
      rw [(hj _ _).nesting_eq, Expr.nesting]
      omega
  obtain ⟨cs', ts', e', hcs', hd', he'⟩ := hlinks n (Nat.le_refl n)
  exact ⟨cs', ts', e', hcs', .chain hd', he'⟩

theorem Occurs.list {n nesting : Nat} (h : Occurs (.chain .or) n nesting) :
    Occurs .primary (1 + n) (1 + nesting) := by
  obtain ⟨cs, ts, e, hcs, hd, he⟩ := h
  have hopen : Spells ['['] [.lbracket] := spells_of_cut rfl fun _ => rfl
  have hclose : Spells [']'] [.rbracket] := spells_of_cut rfl fun _ => rfl
  refine ⟨_, _, _, hopen.append (hcs.append hclose), .list (.last hd), ?_⟩
  rw [Expr.nesting, nestingOfAll, nestingOfAll, he, Nat.max_zero]

/-- Each kind of chain on top of the next tighter one, around what is derived as an operand. -/
theorem Occurs.chains {n nesting : Nat} (h : Occurs .primary n nesting) :
    Occurs (.chain .or) n (n + (n + (n + (n + nesting)))) := by
  have hunary : Occurs .unary n nesting := by
    obtain ⟨cs, ts, e, hcs, hd, he⟩ := h
    exact ⟨cs, ts, e, hcs, .primary hd, he⟩
  have hstar : Spells ['*'] [.star] := spells_of_cut rfl fun _ => rfl
  have hplus : Spells ['+'] [.plus] := spells_of_cut rfl fun _ => rfl
  have hand : Spells ['&', '&'] [.and] := spells_of_cut rfl fun _ => rfl
  have hor : Spells ['|', '|'] [.or] := spells_of_cut rfl fun _ => rfl
  have hsum := (hunary.chain .product hstar .mul).chain .sum hplus .add
  have hnegation : Occurs .negation n (n + (n + nesting)) := by
    obtain ⟨cs, ts, e, hcs, hd, he⟩ := hsum
    exact ⟨cs, ts, e, hcs, .comparison (.sum hd), he⟩
  exact (hnegation.chain .and hand .and).chain .or hor .or

theorem exists_deepest (n : Nat) : Occurs (.chain .or) n (deepest 4 n) := by
  induction n with
  | zero => exact ⟨_, _, _, spells_one, (Makes.int 1).derives _, by simp only [Expr.nesting]; rfl⟩
  | succ n ih =>
    have hchains := ih.list.chains
    rw [deepest_enclosed, deepest_chain, deepest_chain, deepest_chain, deepest_chain,
      Nat.add_comm 1 n] at hchains
    exact hchains

/-! ## Expressions that are read -/

/-- The source is read as the expression with up to `n` levels open at a time. -/
def Opens (source : String) (e : Expr) (n : Nat) : Prop :=
  ∃ os, tokenize source = .ok os ∧ Derives (.chain .or) (os.map Lexeme.token) e n

theorem parse_eq_ok_iff_opens {source : String} {e : Expr} :
    parse source = .ok e ↔ ∃ n ≤ maxDepth, Opens source e n := by
  rw [parse_eq_ok_iff]
  constructor
  · rintro ⟨os, hos, he⟩
    obtain ⟨n, hn, hd⟩ := derives_of_parseTokens he
    exact ⟨n, hn, os, hos, hd⟩
  · rintro ⟨n, hn, os, hos, hd⟩
    exact ⟨os, hos, parseTokens_of_derives hd hn⟩

theorem Spells.opens {cs : List Char} {ts : List Token} {e : Expr} {n : Nat} (hs : Spells cs ts)
    (hd : Derives (.chain .or) ts e n) : Opens (String.ofList cs) e n := by
  obtain ⟨segs, hcuts, hts⟩ := hs [] [] .nil
  obtain ⟨os, hos, htokens⟩ := hcuts.lexemes 0
  have hts' : os.map Lexeme.token = ts := by
    rw [htokens, hts]
    exact List.append_nil ts
  refine ⟨os, ?_, hts' ▸ hd⟩
  rw [tokenize, String.toList_ofList, ← hos, List.append_nil]

theorem Opens.nesting_le {source : String} {e : Expr} {n : Nat} (h : Opens source e n) :
    e.nesting ≤ deepest 4 n := by
  obtain ⟨os, -, hd⟩ := h
  exact hd.nesting_le

theorem Opens.rightNesting_le {source : String} {e : Expr} {n : Nat} (h : Opens source e n) :
    e.rightNesting ≤ n := by
  obtain ⟨os, -, hd⟩ := h
  exact hd.rightNesting_le

theorem exists_opens_deepest (n : Nat) :
    ∃ source e, Opens source e n ∧ e.nesting = deepest 4 n := by
  obtain ⟨cs, ts, e, hcs, hd, he⟩ := exists_deepest n
  exact ⟨String.ofList cs, e, hcs.opens hd, he⟩

/-- With up to seven levels open no expression is nested too deeply, with eight some are. -/
theorem forall_opens_iff (n : Nat) :
    (∀ source e, Opens source e n → e.nesting ≤ maxDepth) ↔ n ≤ 7 := by
  constructor
  · intro h
    by_contra! hn
    obtain ⟨source, e, hopens, he⟩ := exists_opens_deepest n
    have hmany : deepest 4 8 ≤ maxDepth :=
      calc deepest 4 8 ≤ deepest 4 n := deepest_mono hn
        _ = e.nesting := he.symm
        _ ≤ maxDepth := h source e hopens
    exact absurd hmany (by decide)
  · intro hn source e hopens
    calc e.nesting ≤ deepest 4 n := hopens.nesting_le
      _ ≤ deepest 4 7 := deepest_mono hn
      _ ≤ maxDepth := by decide

/-! ## Signs before a sum -/

/-- `n` signs before a one. -/
def negated : Nat → Expr
  | 0 => .literal (.int 1)
  | n + 1 => .neg (negated n)

theorem nesting_negated (n : Nat) : (negated n).nesting = n := by
  induction n with
  | zero => rw [negated, Expr.nesting]
  | succ n ih => rw [negated, Expr.nesting, ih, Nat.add_comm]

theorem derives_negated (n : Nat) :
    Derives .unary (List.replicate n .minus ++ [.int 1]) (negated n) n := by
  induction n with
  | zero => exact (Makes.int 1).derives .unary
  | succ n ih =>
    rw [List.replicate_succ, List.cons_append, negated, Nat.add_comm]
    exact .neg ih

theorem spells_signs (n : Nat) : Spells (List.replicate n '-') (List.replicate n .minus) := by
  induction n with
  | zero => exact fun _ segs hr => ⟨segs, hr, rfl⟩
  | succ n ih =>
    have hsign : Spells ['-'] [.minus] := spells_of_cut rfl fun _ => rfl
    rw [List.replicate_succ, List.replicate_succ]
    exact hsign.append ih

/-- The comparison of a sum that starts with `n` signs. -/
def negatedSum (n : Nat) : Expr :=
  .compare (.arith .add (negated n) (.literal (.int 1))) [(.gt, .literal (.int 0))]

theorem nesting_negatedSum (n : Nat) : (negatedSum n).nesting = n + 1 := by
  simp only [negatedSum, Expr.nesting, nestingOfLinks, nesting_negated]
  omega

/-- The signs are read within the budget and their levels are given back before the sum begins,
which then stands above them. -/
theorem parse_negatedSum {n : Nat} (hn : n ≤ maxDepth) :
    parse (String.ofList (List.replicate n '-' ++ "1+1>0".toList)) = .ok (negatedSum n) := by
  have hrest : Cuts "1+1>0".toList [.token (.int 1) ['1'], .token .plus ['+'],
      .token (.int 1) ['1'], .token .gt ['>'], .token (.int 0) ['0']] := by
    refine .token (t := ⟨.int 1, [], ['+', '1', '>', '0']⟩) rfl rfl ?_
    refine .token (t := ⟨.plus, [], ['1', '>', '0']⟩) rfl rfl ?_
    refine .token (t := ⟨.int 1, [], ['>', '0']⟩) rfl rfl ?_
    refine .token (t := ⟨.gt, [], ['0']⟩) rfl rfl ?_
    exact .token (t := ⟨.int 0, [], []⟩) rfl rfl .nil
  obtain ⟨segs, hcuts, hts⟩ := spells_signs n _ _ hrest
  have hsum : Derives (.chain .sum) (List.replicate n .minus ++ [.int 1] ++ .plus :: [.int 1])
      (.arith .add (negated n) (.literal (.int 1))) (max n 1) :=
    .chain (.link .sum (.first .sum (.chain (.first .product (derives_negated n))))
      (.add _ _) ((Makes.int 1).derives (.chain .product)))
  have hlinks : Compared [.gt, .int 0] [(.gt, .literal (.int 0))] 0 :=
    .cons .gt ((Makes.int 0).derives _) .nil
  have hd : Derives (.chain .or) (tokensOf segs) (negatedSum n) (max n 1) := by
    have hcompare := Derives.compare hsum hlinks (List.cons_ne_nil _ _)
    rw [Nat.max_zero, List.append_assoc, List.append_assoc] at hcompare
    rw [hts]
    exact hcompare.expression
  have hcuts' : Cuts (String.ofList (List.replicate n '-' ++ "1+1>0".toList)).toList segs := by
    rwa [String.toList_ofList]
  have hone : 1 ≤ maxDepth := by decide
  exact (parse_eq_ok_iff_derives hcuts').2 ⟨max n 1, Nat.max_le.2 ⟨hn, hone⟩, hd⟩

/-! ## What the budget bounds -/

/-- **The budget bounds the nesting to the right, and all nesting only by its square.** On no way
through an expression that is read there are more than 128 levels that are not entered by the left
operand of an operator. With `n` levels open at a time there are up to `n * (2 * n + 3)` levels in
all, which is up to 33152, and as many are reached for every `n`. So expressions nest at most 128
levels for certain as long as no more than seven levels are open, and not from eight on. -/
theorem parse_nesting_le {source : String} {e : Expr} (h : parse source = .ok e) :
    e.rightNesting ≤ maxDepth ∧
      ∃ n ≤ maxDepth, Opens source e n ∧ e.nesting ≤ n * (2 * n + 3) ∧
        (∃ source' e', Opens source' e' n ∧ e'.nesting = n * (2 * n + 3)) ∧
        ((∀ source' e', Opens source' e' n → e'.nesting ≤ maxDepth) ↔ n ≤ 7) := by
  obtain ⟨n, hn, hopens⟩ := parse_eq_ok_iff_opens.1 h
  have hdeepest : deepest 4 n = n * (2 * n + 3) := deepest_four n
  refine ⟨hopens.rightNesting_le.trans hn, n, hn, hopens, ?_, ?_, forall_opens_iff n⟩
  · rw [← hdeepest]
    exact hopens.nesting_le
  · rw [← hdeepest]
    exact exists_opens_deepest n

theorem parse_nesting_le_signs :
    parse "---1+1>0" = .ok (negatedSum 3) ∧ (negatedSum 3).nesting = 4 ∧
      (negatedSum 3).rightNesting ≤ maxDepth ∧
      ∃ n ≤ maxDepth, Opens "---1+1>0" (negatedSum 3) n ∧ 4 ≤ n * (2 * n + 3) := by
  have hparse : parse "---1+1>0" = .ok (negatedSum 3) := parse_negatedSum (n := 3) (by decide)
  have hnesting : (negatedSum 3).nesting = 4 := nesting_negatedSum 3
  obtain ⟨hright, n, hn, hopens, hle, -, -⟩ := parse_nesting_le hparse
  rw [hnesting] at hle
  exact ⟨hparse, hnesting, hright, n, hn, hopens, hle⟩

/-- As many signs as the budget allows, and one level more. -/
theorem parse_exceeds_maxDepth :
    ∃ e, parse (String.ofList (List.replicate 128 '-' ++ "1+1>0".toList)) = .ok e ∧
      e.isLogical = true ∧ e.nesting = maxDepth + 1 :=
  ⟨negatedSum 128, parse_negatedSum (Nat.le_refl _), rfl, nesting_negatedSum 128⟩

end GuardTree.Formula
