import GuardTree.Formula.Parser

/-! # The parser's functions by equations

The parser's functions return their results with a bound on what is left. `readOperand`,
`readLinks`, `readComparisons` and `readItems` are the same functions without the bounds, and one
equation for each form of cursor says what they do, whether they succeed or halt.
-/

namespace GuardTree.Formula

set_option autoImplicit false

def readOperand (l : Level) (c : Cursor) : Except Halt (Expr × Cursor) :=
  (operand l c).map Subtype.val

def readLinks (k : Chain) (lhs : Expr) (opened : Nat) (c : Cursor) : Except Halt (Expr × Cursor) :=
  (links k lhs opened c).map Subtype.val

def readComparisons (c : Cursor) : Except Halt (List (Comparison × Expr) × Cursor) :=
  (comparisons c).map Subtype.val

def readItems (c : Cursor) : Except Halt (List Expr × Cursor) :=
  (items c).map Subtype.val

theorem map_val_bind {ε α β : Type} {p : α → Prop} {q : β → Prop} {x : Except ε {a // p a}}
    {f : {a // p a} → Except ε {b // q b}} {g : α → Except ε β}
    (h : ∀ a, (f a).map Subtype.val = g a.val) :
    (x >>= f).map Subtype.val = x.map Subtype.val >>= g := by
  cases x with
  | error => rfl
  | ok a => exact h a

variable {c : Cursor} {k : Chain} {t : Lexeme} {r : List Lexeme} {d i : Nat} {lhs : Expr}

/-! ## Chains -/

theorem readOperand_chain : readOperand (.chain k) c = (do
    let (lhs, c₁) ← readOperand k.operand c
    readLinks k lhs 0 c₁) := by
  rw [readOperand, operand]
  refine map_val_bind ?_
  rintro ⟨⟨lhs, c₁⟩, h₁⟩
  dsimp only
  rw [readLinks]
  cases links k lhs 0 c₁ <;> rfl

theorem readLinks_nil : readLinks k lhs i ⟨[], d⟩ = .ok (lhs, ⟨[], d - i⟩) := by
  rw [readLinks, links]
  rfl

theorem readLinks_stop (hj : k.join? t.token = none) :
    readLinks k lhs i ⟨t :: r, d⟩ = .ok (lhs, ⟨t :: r, d - i⟩) := by
  rw [readLinks, links]
  dsimp only
  split
  case h_1 => rfl
  case h_2 hs => simp [hj] at hs

theorem readLinks_link {join : Expr → Expr → Expr} (hj : k.join? t.token = some join) :
    readLinks k lhs i ⟨t :: r, d⟩ = if d < maxDepth then do
        let (rhs, c₁) ← readOperand k.operand ⟨r, d + 1⟩
        readLinks k (join lhs rhs) (i + 1) c₁
      else .error ⟨r, .tooDeep⟩ := by
  rw [readLinks, links]
  dsimp only
  split
  case h_1 hn => simp [hj] at hn
  case h_2 join' hs =>
    obtain rfl : join = join' := Option.some.inj (hj.symm.trans hs)
    split
    case isFalse => rfl
    case isTrue =>
      refine map_val_bind ?_
      rintro ⟨⟨rhs, c₁⟩, h₁⟩
      dsimp only
      rw [readLinks]
      cases links k (join lhs rhs) (i + 1) c₁ <;> rfl

/-! ## Prefixes -/

/-- `Prefix l l' u make`: at level `l` the token `u` stands before an operand of the same level and
makes an expression of it; without `u` the operand is one of level `l'`. -/
inductive Prefix : Level → Level → Token → (Expr → Expr) → Prop
  | not : Prefix .negation .comparison .not .not
  | neg : Prefix .unary .primary .minus .neg

variable {l l' : Level} {u : Token} {make : Expr → Expr}

theorem readOperand_prefix (hp : Prefix l l' u make) (ht : t.token = u) :
    readOperand l ⟨t :: r, d⟩ = if d < maxDepth then do
        let (e, c₁) ← readOperand l ⟨r, d + 1⟩
        return (make e, ⟨c₁.rest, c₁.depth - 1⟩)
      else .error ⟨r, .tooDeep⟩ := by
  cases hp
  all_goals
    rw [readOperand, operand]
    simp only [if_pos ht]
    split
    case isFalse => rfl
    case isTrue => exact map_val_bind fun _ => rfl

/-! ## Comparisons -/

theorem readOperand_comparison : readOperand .comparison c = (do
    let (first, c₁) ← readOperand (.chain .sum) c
    let (ops, c₂) ← readComparisons c₁
    return (if ops.isEmpty then first else .compare first ops, c₂)) := by
  rw [readOperand, operand]
  refine map_val_bind ?_
  rintro ⟨⟨first, c₁⟩, h₁⟩
  exact map_val_bind fun _ => rfl

theorem readComparisons_stop (hc : comparison? c.rest = none) :
    readComparisons c = .ok ([], c) := by
  rw [readComparisons, comparisons]
  split
  case h_1 => rfl
  case h_2 hs => simp [hc] at hs

theorem readComparisons_link {op : Comparison} (hc : comparison? c.rest = some (op, r)) :
    readComparisons c = (do
      let (e, c₁) ← readOperand (.chain .sum) ⟨r, c.depth⟩
      let (ops, c₂) ← readComparisons c₁
      return ((op, e) :: ops, c₂)) := by
  rw [readComparisons, comparisons]
  split
  case h_1 hn => simp [hc] at hn
  case h_2 hop =>
    cases hc.symm.trans hop
    refine map_val_bind ?_
    rintro ⟨⟨e, c₁⟩, h₁⟩
    exact map_val_bind fun _ => rfl

/-! ## Single operands -/

theorem readOperand_primary_nil :
    readOperand .primary ⟨[], d⟩ = .error ⟨[], .unexpectedEnd⟩ := by
  rw [readOperand, operand]
  rfl

theorem readOperand_leaf {e : Expr} (ht : leaf? t.token = some e) :
    readOperand .primary ⟨t :: r, d⟩ = .ok (e, ⟨r, d⟩) := by
  rw [readOperand, operand]
  simp only [ht]
  rfl

/-- After an expression in parentheses, the closing one. -/
def closeParens (e : Expr) (c : Cursor) : Except Halt (Expr × Cursor) :=
  match c.rest with
  | u :: r =>
    if u.token = .rparen then .ok (e, ⟨r, c.depth - 1⟩) else .error ⟨u :: r, .expectedParen⟩
  | [] => .error ⟨[], .expectedParen⟩

theorem closeParens_close {e : Expr} (ht : t.token = .rparen) :
    closeParens e ⟨t :: r, d⟩ = .ok (e, ⟨r, d - 1⟩) :=
  if_pos ht

theorem closeParens_unclosed {e : Expr} {rest : List Lexeme}
    (ht : ∀ t ∈ rest.head?, t.token ≠ .rparen) :
    closeParens e ⟨rest, d⟩ = .error ⟨rest, .expectedParen⟩ := by
  cases rest with
  | nil => rfl
  | cons t r => exact if_neg (ht t rfl)

theorem readOperand_parens (ht : t.token = .lparen) :
    readOperand .primary ⟨t :: r, d⟩ = if d < maxDepth then do
        let (e, c₁) ← readOperand (.chain .or) ⟨r, d + 1⟩
        closeParens e c₁
      else .error ⟨r, .tooDeep⟩ := by
  have hleaf : leaf? t.token = none := by rw [ht]; rfl
  rw [readOperand, operand]
  simp only [hleaf, if_pos ht]
  split
  case isFalse => rfl
  case isTrue =>
    refine map_val_bind ?_
    rintro ⟨⟨e, c₁⟩, h₁⟩
    dsimp only
    rw [closeParens]
    split
    case h_1 u r' hr =>
      simp only [hr]
      split <;> rfl
    case h_2 hr =>
      simp only [hr]
      rfl

theorem readOperand_list (ht : t.token = .lbracket) :
    readOperand .primary ⟨t :: r, d⟩ = if d < maxDepth then do
        let (es, c₁) ← readItems ⟨r, d + 1⟩
        return (.list es, ⟨c₁.rest, c₁.depth - 1⟩)
      else .error ⟨r, .tooDeep⟩ := by
  have hleaf : leaf? t.token = none := by rw [ht]; rfl
  have hparen : t.token ≠ .lparen := by rw [ht]; decide
  rw [readOperand, operand]
  simp only [hleaf, if_neg hparen, if_pos ht]
  split
  case isFalse => rfl
  case isTrue => exact map_val_bind fun _ => rfl

theorem readOperand_unexpected (hleaf : leaf? t.token = none) (hparen : t.token ≠ .lparen)
    (hbracket : t.token ≠ .lbracket) :
    readOperand .primary ⟨t :: r, d⟩ = .error ⟨t :: r, .unexpectedToken t.token⟩ := by
  rw [readOperand, operand]
  simp only [hleaf, if_neg hparen, if_neg hbracket]
  rfl

/-! ## Items -/

theorem readItems_nil : readItems ⟨[], d⟩ = .error ⟨[], .unexpectedEnd⟩ := by
  rw [readItems, items]
  rfl

theorem readItems_close (ht : t.token = .rbracket) :
    readItems ⟨t :: r, d⟩ = .ok ([], ⟨r, d⟩) := by
  rw [readItems, items]
  simp only [if_pos ht]
  rfl

/-- After an item, the closing bracket or a comma and the other items. -/
def afterItem (e : Expr) (c : Cursor) : Except Halt (List Expr × Cursor) :=
  match c.rest with
  | [] => .error ⟨[], .expectedSeparator⟩
  | u :: r =>
    if u.token = .rbracket then .ok ([e], ⟨r, c.depth⟩)
    else if u.token = .comma then do
      let (es, c₁) ← readItems ⟨r, c.depth⟩
      return (e :: es, c₁)
    else .error ⟨u :: r, .expectedSeparator⟩

theorem afterItem_close {e : Expr} (ht : t.token = .rbracket) :
    afterItem e ⟨t :: r, d⟩ = .ok ([e], ⟨r, d⟩) :=
  if_pos ht

theorem afterItem_next {e : Expr} (ht : t.token = .comma) :
    afterItem e ⟨t :: r, d⟩ = (do
      let (es, c₁) ← readItems ⟨r, d⟩
      return (e :: es, c₁)) := by
  have hclose : t.token ≠ .rbracket := by rw [ht]; decide
  rw [afterItem]
  dsimp only
  rw [if_neg hclose, if_pos ht]

theorem afterItem_unseparated {e : Expr} {rest : List Lexeme}
    (hclose : ∀ t ∈ rest.head?, t.token ≠ .rbracket)
    (hnext : ∀ t ∈ rest.head?, t.token ≠ .comma) :
    afterItem e ⟨rest, d⟩ = .error ⟨rest, .expectedSeparator⟩ := by
  cases rest with
  | nil => rfl
  | cons t r =>
    rw [afterItem]
    dsimp only
    rw [if_neg (hclose t rfl), if_neg (hnext t rfl)]

theorem readItems_item (ht : t.token ≠ .rbracket) :
    readItems ⟨t :: r, d⟩ = (do
      let (e, c₁) ← readOperand (.chain .or) ⟨t :: r, d⟩
      afterItem e c₁) := by
  rw [readItems, items]
  simp only [if_neg ht]
  refine map_val_bind ?_
  rintro ⟨⟨e, c₁⟩, h₁⟩
  dsimp only
  rw [afterItem]
  split
  case h_1 hr =>
    rw [hr]
    rfl
  case h_2 hr =>
    simp only [hr]
    split
    case isTrue => rfl
    case isFalse =>
      split
      case isTrue => exact map_val_bind fun _ => rfl
      case isFalse => rfl

/-! ## The end of the tokens -/

theorem readOperand_nil : readOperand l ⟨[], d⟩ = .error ⟨[], .unexpectedEnd⟩ := by
  have hunary : readOperand .unary ⟨[], d⟩ = .error ⟨[], .unexpectedEnd⟩ := by
    rw [readOperand, operand]
    rfl
  have hnegation : readOperand .negation ⟨[], d⟩ = .error ⟨[], .unexpectedEnd⟩ := by
    rw [readOperand, operand]
    rfl
  have hchain : ∀ k : Chain, readOperand k.operand ⟨[], d⟩ = .error ⟨[], .unexpectedEnd⟩ →
      readOperand (.chain k) ⟨[], d⟩ = .error ⟨[], .unexpectedEnd⟩ := by
    intro k h
    rw [readOperand_chain, h]
    rfl
  have hsum := hchain .sum (hchain .product hunary)
  cases l with
  | primary => exact readOperand_primary_nil
  | unary => exact hunary
  | negation => exact hnegation
  | comparison =>
    rw [readOperand_comparison, hsum]
    rfl
  | chain k =>
    cases k with
    | product => exact hchain .product hunary
    | sum => exact hsum
    | and => exact hchain .and hnegation
    | or => exact hchain .or (hchain .and hnegation)

/-- Without the prefix, the operand is one of the tighter level. -/
theorem readOperand_tighter {rest : List Lexeme} (hp : Prefix l l' u make)
    (ht : ∀ t ∈ rest.head?, t.token ≠ u) : readOperand l ⟨rest, d⟩ = readOperand l' ⟨rest, d⟩ := by
  cases rest with
  | nil => rw [readOperand_nil, readOperand_nil]
  | cons t r =>
    have ht : t.token ≠ u := ht t rfl
    cases hp
    all_goals
      rw [readOperand, operand]
      simp only [if_neg ht]
      rw [readOperand]
    · cases operand .comparison ⟨t :: r, d⟩ <;> rfl
    · cases operand .primary ⟨t :: r, d⟩ <;> rfl

theorem readItems_next {rest : List Lexeme} (ht : ∀ t ∈ rest.head?, t.token ≠ .rbracket) :
    readItems ⟨rest, d⟩ = (do
      let (e, c₁) ← readOperand (.chain .or) ⟨rest, d⟩
      afterItem e c₁) := by
  cases rest with
  | nil =>
    rw [readItems_nil, readOperand_nil]
    rfl
  | cons t r => exact readItems_item (ht t rfl)

end GuardTree.Formula
