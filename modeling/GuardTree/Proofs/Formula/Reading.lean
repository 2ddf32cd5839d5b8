import GuardTree.Proofs.Formula.Equations

/-! # What the parser's functions read

`Reads l c e c'`: from the cursor `c`, `operand` reads `e` at level `l` and leaves `c'`, and the
same for the other functions. One lemma for each form of cursor says what such a reading is made
of, without the bounds on what is left.
-/

namespace GuardTree.Formula

set_option autoImplicit false

variable {c c' : Cursor} {k : Chain} {t : Lexeme} {r : List Lexeme} {d i : Nat} {e lhs : Expr}
  {es : List Expr} {ls : List (Comparison × Expr)}

def Reads (l : Level) (c : Cursor) (e : Expr) (c' : Cursor) : Prop :=
  ∃ h, operand l c = .ok ⟨(e, c'), h⟩

def ReadsLinks (k : Chain) (lhs : Expr) (i : Nat) (c : Cursor) (e : Expr) (c' : Cursor) : Prop :=
  ∃ h, links k lhs i c = .ok ⟨(e, c'), h⟩

def ReadsComparisons (c : Cursor) (ls : List (Comparison × Expr)) (c' : Cursor) : Prop :=
  ∃ h, comparisons c = .ok ⟨(ls, c'), h⟩

def ReadsItems (c : Cursor) (es : List Expr) (c' : Cursor) : Prop :=
  ∃ h, items c = .ok ⟨(es, c'), h⟩

theorem Reads.length_lt {l : Level} (h : Reads l c e c') : c'.rest.length < c.rest.length := by
  obtain ⟨h, -⟩ := h
  exact h

theorem ReadsItems.length_lt (h : ReadsItems c es c') : c'.rest.length < c.rest.length := by
  obtain ⟨h, -⟩ := h
  exact h

theorem not_reads_nil {l : Level} : ¬ Reads l ⟨[], d⟩ e c' :=
  fun h => Nat.not_lt_zero _ h.length_lt

theorem not_readsItems_nil : ¬ ReadsItems ⟨[], d⟩ es c' :=
  fun h => Nat.not_lt_zero _ h.length_lt

theorem bind_eq_ok_iff {ε α β : Type} {x : Except ε α} {f : α → Except ε β} {b : β} :
    (x >>= f) = .ok b ↔ ∃ a, x = .ok a ∧ f a = .ok b := by
  cases x with
  | error => simp [bind, Except.bind]
  | ok => simp [bind, Except.bind]

theorem ite_error_eq_ok_iff {ε α : Type} {p : Prop} [Decidable p] {x : Except ε α} {f : ε} {a : α} :
    (if p then x else .error f) = .ok a ↔ p ∧ x = .ok a := by
  split
  case isTrue hp => simp [hp]
  case isFalse hp => simp [hp]

theorem ok_eq_ok_iff {ε α β : Type} {a a' : α} {b b' : β} :
    (.ok (a, b) : Except ε (α × β)) = .ok (a', b') ↔ a' = a ∧ b' = b := by
  rw [Except.ok.injEq, Prod.mk.injEq, eq_comm, @eq_comm _ b]

/-! ## Readings without bounds -/

theorem map_val_eq_ok_iff {ε α : Type} {p : α → Prop} {x : Except ε {a // p a}} {a : α} :
    x.map Subtype.val = .ok a ↔ ∃ h, x = .ok ⟨a, h⟩ := by
  cases x with
  | error => simp [Except.map]
  | ok b =>
    constructor
    · rintro ⟨⟩
      exact ⟨b.property, rfl⟩
    · rintro ⟨h, ⟨⟩⟩
      rfl

variable {l l' : Level}

theorem reads_iff : Reads l c e c' ↔ readOperand l c = .ok (e, c') := by
  rw [Reads, readOperand, map_val_eq_ok_iff]

theorem readsLinks_iff : ReadsLinks k lhs i c e c' ↔ readLinks k lhs i c = .ok (e, c') := by
  rw [ReadsLinks, readLinks, map_val_eq_ok_iff]

theorem readsComparisons_iff : ReadsComparisons c ls c' ↔ readComparisons c = .ok (ls, c') := by
  rw [ReadsComparisons, readComparisons, map_val_eq_ok_iff]

theorem readsItems_iff_readItems : ReadsItems c es c' ↔ readItems c = .ok (es, c') := by
  rw [ReadsItems, readItems, map_val_eq_ok_iff]

/-! ## Chains -/

theorem reads_chain_iff :
    Reads (.chain k) c e c' ↔ ∃ lhs c₁, Reads k.operand c lhs c₁ ∧ ReadsLinks k lhs 0 c₁ e c' := by
  simp only [reads_iff, readsLinks_iff, readOperand_chain, bind_eq_ok_iff, Prod.exists]

theorem readsLinks_nil_iff :
    ReadsLinks k lhs i ⟨[], d⟩ e c' ↔ e = lhs ∧ c' = ⟨[], d - i⟩ := by
  rw [readsLinks_iff, readLinks_nil, ok_eq_ok_iff]

theorem readsLinks_stop_iff (hj : k.join? t.token = none) :
    ReadsLinks k lhs i ⟨t :: r, d⟩ e c' ↔ e = lhs ∧ c' = ⟨t :: r, d - i⟩ := by
  rw [readsLinks_iff, readLinks_stop hj, ok_eq_ok_iff]

theorem readsLinks_link_iff {join : Expr → Expr → Expr} (hj : k.join? t.token = some join) :
    ReadsLinks k lhs i ⟨t :: r, d⟩ e c' ↔ d < maxDepth ∧ ∃ rhs c₁,
      Reads k.operand ⟨r, d + 1⟩ rhs c₁ ∧ ReadsLinks k (join lhs rhs) (i + 1) c₁ e c' := by
  simp only [reads_iff, readsLinks_iff, readLinks_link hj, ite_error_eq_ok_iff, bind_eq_ok_iff,
    Prod.exists]

/-! ## Prefixes -/

variable {u : Token} {make : Expr → Expr}

theorem reads_prefix_iff (hp : Prefix l l' u make) (ht : t.token = u) :
    Reads l ⟨t :: r, d⟩ e c' ↔ d < maxDepth ∧ ∃ e₁ c₁,
      Reads l ⟨r, d + 1⟩ e₁ c₁ ∧ e = make e₁ ∧ c' = ⟨c₁.rest, c₁.depth - 1⟩ := by
  simp only [reads_iff, readOperand_prefix hp ht, ite_error_eq_ok_iff, bind_eq_ok_iff, Prod.exists]
  exact and_congr_right fun _ => exists₂_congr fun _ _ => and_congr_right fun _ => ok_eq_ok_iff

theorem reads_tighter_iff (hp : Prefix l l' u make) (ht : t.token ≠ u) :
    Reads l ⟨t :: r, d⟩ e c' ↔ Reads l' ⟨t :: r, d⟩ e c' := by
  rw [reads_iff, reads_iff, readOperand_tighter hp]
  simpa using ht

/-! ## Comparisons -/

theorem reads_comparison_iff :
    Reads .comparison c e c' ↔ ∃ first c₁ ls, Reads (.chain .sum) c first c₁ ∧
      ReadsComparisons c₁ ls c' ∧ e = if ls.isEmpty then first else .compare first ls := by
  simp only [reads_iff, readsComparisons_iff, readOperand_comparison, bind_eq_ok_iff, Prod.exists]
  constructor
  · rintro ⟨first, c₁, ho, ls, c₂, hl, hr⟩
    obtain ⟨he, rfl⟩ := ok_eq_ok_iff.1 hr
    exact ⟨first, c₁, ls, ho, hl, he⟩
  · rintro ⟨first, c₁, ls, ho, hl, rfl⟩
    exact ⟨first, c₁, ho, ls, c', hl, rfl⟩

theorem readsComparisons_stop_iff (hc : comparison? c.rest = none) :
    ReadsComparisons c ls c' ↔ ls = [] ∧ c' = c := by
  rw [readsComparisons_iff, readComparisons_stop hc, ok_eq_ok_iff]

theorem readsComparisons_link_iff {op : Comparison} (hc : comparison? c.rest = some (op, r)) :
    ReadsComparisons c ls c' ↔ ∃ e c₁ ls', Reads (.chain .sum) ⟨r, c.depth⟩ e c₁ ∧
      ReadsComparisons c₁ ls' c' ∧ ls = (op, e) :: ls' := by
  simp only [reads_iff, readsComparisons_iff, readComparisons_link hc, bind_eq_ok_iff, Prod.exists]
  constructor
  · rintro ⟨e, c₁, ho, ls', c₂, hl, hr⟩
    obtain ⟨rfl, rfl⟩ := ok_eq_ok_iff.1 hr
    exact ⟨e, c₁, ls', ho, hl, rfl⟩
  · rintro ⟨e, c₁, ls', ho, hl, rfl⟩
    exact ⟨e, c₁, ho, ls', c', hl, rfl⟩

/-! ## Single operands -/

theorem reads_leaf_iff {e₀ : Expr} (ht : leaf? t.token = some e₀) :
    Reads .primary ⟨t :: r, d⟩ e c' ↔ e = e₀ ∧ c' = ⟨r, d⟩ := by
  rw [reads_iff, readOperand_leaf ht, ok_eq_ok_iff]

theorem reads_parens_iff (ht : t.token = .lparen) :
    Reads .primary ⟨t :: r, d⟩ e c' ↔ d < maxDepth ∧ ∃ c₁ u r',
      Reads (.chain .or) ⟨r, d + 1⟩ e c₁ ∧ c₁.rest = u :: r' ∧ u.token = .rparen ∧
        c' = ⟨r', c₁.depth - 1⟩ := by
  simp only [reads_iff, readOperand_parens ht, ite_error_eq_ok_iff, bind_eq_ok_iff, Prod.exists]
  refine and_congr_right fun _ => ?_
  constructor
  · rintro ⟨e₁, c₁, ho, hc⟩
    rw [closeParens] at hc
    split at hc
    case h_2 => cases hc
    case h_1 u r' hr =>
      obtain ⟨hu, hc⟩ := ite_error_eq_ok_iff.1 hc
      obtain ⟨rfl, rfl⟩ := ok_eq_ok_iff.1 hc
      exact ⟨c₁, u, r', ho, hr, hu, rfl⟩
  · rintro ⟨⟨_, d₁⟩, u, r', ho, rfl, hu, rfl⟩
    exact ⟨e, _, ho, closeParens_close hu⟩

theorem reads_list_iff (ht : t.token = .lbracket) :
    Reads .primary ⟨t :: r, d⟩ e c' ↔ d < maxDepth ∧ ∃ es c₁,
      ReadsItems ⟨r, d + 1⟩ es c₁ ∧ e = .list es ∧ c' = ⟨c₁.rest, c₁.depth - 1⟩ := by
  simp only [reads_iff, readsItems_iff_readItems, readOperand_list ht, ite_error_eq_ok_iff,
    bind_eq_ok_iff, Prod.exists]
  exact and_congr_right fun _ => exists₂_congr fun _ _ => and_congr_right fun _ => ok_eq_ok_iff

theorem not_reads_primary (hleaf : leaf? t.token = none) (hparen : t.token ≠ .lparen)
    (hbracket : t.token ≠ .lbracket) : ¬ Reads .primary ⟨t :: r, d⟩ e c' := by
  rw [reads_iff, readOperand_unexpected hleaf hparen hbracket]
  exact fun h => nomatch h

/-! ## Items -/

theorem readsItems_close_iff (ht : t.token = .rbracket) :
    ReadsItems ⟨t :: r, d⟩ es c' ↔ es = [] ∧ c' = ⟨r, d⟩ := by
  rw [readsItems_iff_readItems, readItems_close ht, ok_eq_ok_iff]

/-- After an item, the closing bracket or a comma and the other items. -/
theorem readsItems_iff (ht : t.token ≠ .rbracket) :
    ReadsItems ⟨t :: r, d⟩ es c' ↔ ∃ e c₁ u r',
      Reads (.chain .or) ⟨t :: r, d⟩ e c₁ ∧ c₁.rest = u :: r' ∧
        ((u.token = .rbracket ∧ es = [e] ∧ c' = ⟨r', c₁.depth⟩) ∨
          (u.token = .comma ∧ ∃ es', ReadsItems ⟨r', c₁.depth⟩ es' c' ∧ es = e :: es')) := by
  simp only [reads_iff, readsItems_iff_readItems, readItems_item ht, bind_eq_ok_iff, Prod.exists]
  constructor
  · rintro ⟨e, c₁, ho, hc⟩
    rw [afterItem] at hc
    split at hc
    case h_1 => cases hc
    case h_2 u r' hr =>
      refine ⟨e, c₁, u, r', ho, hr, ?_⟩
      split at hc
      case isTrue hu => exact .inl ⟨hu, ok_eq_ok_iff.1 hc⟩
      case isFalse =>
        obtain ⟨hu, hc⟩ := ite_error_eq_ok_iff.1 hc
        obtain ⟨⟨es', c₂⟩, hi, hc⟩ := bind_eq_ok_iff.1 hc
        obtain ⟨rfl, rfl⟩ := ok_eq_ok_iff.1 hc
        exact .inr ⟨hu, es', hi, rfl⟩
  · rintro ⟨e, ⟨_, d₁⟩, u, r', ho, rfl, hu⟩
    refine ⟨e, _, ho, ?_⟩
    obtain ⟨hu, rfl, rfl⟩ | ⟨hu, es', hi, rfl⟩ := hu
    · exact afterItem_close hu
    · rw [afterItem_next hu, hi]
      rfl

end GuardTree.Formula
