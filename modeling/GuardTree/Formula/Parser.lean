import GuardTree.Formula.Lexer

/-! # From tokens to expressions

The grammar has eight levels, loosest first: `or`, `and`, `not`, comparisons, sums, products, unary
minus, and single operands. A `Cursor` is the tokens still to be read and the number of levels of
the tree that are open; no tree may open more than `maxDepth`. Every operator of a chain that
associates to the left opens one level until its chain ends, and so do `not`, unary minus,
parentheses and brackets until their operand ends.

* `operand`: reads an expression of a level.
* `links`: the further operands of a chain that associates to the left.
* `comparisons`: the links of a comparison chain.
* `items`: the items of a list up to the closing bracket.

Each returns a cursor with fewer tokens left, which is what makes them end.
-/

namespace GuardTree.Formula

set_option autoImplicit false

/-- The deepest tree that is read. -/
def maxDepth : Nat := 128

/-- The tokens left and the number of open levels. -/
structure Cursor where
  rest : List Lexeme
  depth : Nat

/-- Where reading stops: the tokens from that point on, and why. -/
structure Halt where
  rest : List Lexeme
  problem : Problem

/-- The operators that make chains associating to the left. -/
inductive Chain
  | or
  | and
  | sum
  | product
deriving DecidableEq

/-- The levels of the grammar. -/
inductive Level
  | chain (k : Chain)
  | negation
  | comparison
  | unary
  | primary
deriving DecidableEq

def Chain.operand : Chain → Level
  | .or => .chain .and
  | .and => .negation
  | .sum => .chain .product
  | .product => .unary

/-- How a token joins the operands of a chain, if it does. -/
def Chain.join? : Chain → Token → Option (Expr → Expr → Expr)
  | .or, .or => some .or
  | .and, .and => some .and
  | .sum, .plus => some (.arith .add)
  | .sum, .minus => some (.arith .sub)
  | .product, .star => some (.arith .mul)
  | .product, .slash => some (.arith .div)
  | .product, .percent => some (.arith .rem)
  | _, _ => none

/-- How many levels are tighter. -/
def Level.rank : Level → Nat
  | .primary => 0
  | .unary => 1
  | .chain .product => 2
  | .chain .sum => 3
  | .comparison => 4
  | .negation => 5
  | .chain .and => 6
  | .chain .or => 7

theorem Chain.operand_rank_lt (k : Chain) : k.operand.rank < (Level.chain k).rank := by
  cases k <;> decide

/-- The comparison that the tokens start with, and what follows it; `not in` is two tokens. -/
def comparison? : List Lexeme → Option (Comparison × List Lexeme)
  | [] => none
  | t :: r =>
    match t.token with
    | .eq => some (.eq, r)
    | .ne => some (.ne, r)
    | .lt => some (.lt, r)
    | .le => some (.le, r)
    | .gt => some (.gt, r)
    | .ge => some (.ge, r)
    | .elem => some (.elem, r)
    | .not =>
      match r with
      | u :: r' => if u.token = .elem then some (.notElem, r') else none
      | [] => none
    | _ => none

theorem comparison?_length_lt {ts r : List Lexeme} {op : Comparison}
    (h : comparison? ts = some (op, r)) : r.length < ts.length := by
  unfold comparison? at h
  split at h
  · cases h
  · split at h
    case h_8 =>
      split at h
      · split at h
        · cases h
          simp only [List.length_cons]
          omega
        · cases h
      · cases h
    all_goals cases h
    all_goals simp

/-- A result and a cursor with fewer tokens left than `n`. -/
abbrev Shorter (α : Type) (n : Nat) := { p : α × Cursor // p.2.rest.length < n }

/-- A result and a cursor with at most `n` tokens left. -/
abbrev NotLonger (α : Type) (n : Nat) := { p : α × Cursor // p.2.rest.length ≤ n }

def Shorter.weaken {α : Type} {m n : Nat} (p : Shorter α m) (h : m ≤ n) : Shorter α n :=
  ⟨p.1, Nat.lt_of_lt_of_le p.2 h⟩

def leaf? : Token → Option Expr
  | .int n => some (.literal (.int n))
  | .float x => some (.literal (.float x))
  | .str s => some (.literal (.str s))
  | .true => some (.literal (.bool true))
  | .false => some (.literal (.bool false))
  | .none => some (.literal .none)
  | .ident name => some (.ident name)
  | .var name => some (.var name)
  | _ => none

mutual

def operand (level : Level) (c : Cursor) : Except Halt (Shorter Expr c.rest.length) :=
  match level with
  | .chain k => do
    let ⟨(lhs, c₁), h₁⟩ ← operand k.operand c
    let ⟨p, h₂⟩ ← links k lhs 0 c₁
    return ⟨p, Nat.lt_of_le_of_lt h₂ h₁⟩
  | .negation =>
    match _h : c.rest with
    | t :: r =>
      if t.token = .not then
        if c.depth < maxDepth then do
          let ⟨(e, c₁), h₁⟩ ← operand .negation ⟨r, c.depth + 1⟩
          return ⟨(.not e, ⟨c₁.rest, c₁.depth - 1⟩), by simp at h₁ ⊢; omega⟩
        else .error ⟨r, .tooDeep⟩
      else do
        let p ← operand .comparison c
        return p.weaken (by simp [_h])
    | [] => .error ⟨[], .unexpectedEnd⟩
  | .comparison => do
    let ⟨(first, c₁), h₁⟩ ← operand (.chain .sum) c
    let ⟨(ops, c₂), h₂⟩ ← comparisons c₁
    return ⟨(if ops.isEmpty then first else .compare first ops, c₂), Nat.lt_of_le_of_lt h₂ h₁⟩
  | .unary =>
    match _h : c.rest with
    | t :: r =>
      if t.token = .minus then
        if c.depth < maxDepth then do
          let ⟨(e, c₁), h₁⟩ ← operand .unary ⟨r, c.depth + 1⟩
          return ⟨(.neg e, ⟨c₁.rest, c₁.depth - 1⟩), by simp at h₁ ⊢; omega⟩
        else .error ⟨r, .tooDeep⟩
      else do
        let p ← operand .primary c
        return p.weaken (by simp [_h])
    | [] => .error ⟨[], .unexpectedEnd⟩
  | .primary =>
    match _h : c.rest with
    | [] => .error ⟨[], .unexpectedEnd⟩
    | t :: r =>
      match leaf? t.token with
      | some e => .ok ⟨(e, ⟨r, c.depth⟩), by simp⟩
      | none =>
        if t.token = .lparen then
          if c.depth < maxDepth then do
            let ⟨(e, c₁), h₁⟩ ← operand (.chain .or) ⟨r, c.depth + 1⟩
            match _h' : c₁.rest with
            | u :: r' =>
              if u.token = .rparen then
                return ⟨(e, ⟨r', c₁.depth - 1⟩), by simp [_h'] at h₁ ⊢; omega⟩
              else .error ⟨c₁.rest, .expectedParen⟩
            | [] => .error ⟨[], .expectedParen⟩
          else .error ⟨r, .tooDeep⟩
        else if t.token = .lbracket then
          if c.depth < maxDepth then do
            let ⟨(es, c₁), h₁⟩ ← items ⟨r, c.depth + 1⟩
            return ⟨(.list es, ⟨c₁.rest, c₁.depth - 1⟩), by simp at h₁ ⊢; omega⟩
          else .error ⟨r, .tooDeep⟩
        else .error ⟨t :: r, .unexpectedToken t.token⟩
termination_by (c.rest.length, level.rank)
decreasing_by
  · exact Prod.Lex.right _ k.operand_rank_lt
  · exact Prod.Lex.left _ _ h₁
  · exact Prod.Lex.left _ _ (by simp [_h])
  · exact Prod.Lex.right _ (by decide)
  · exact Prod.Lex.right _ (by decide)
  · exact Prod.Lex.left _ _ h₁
  · exact Prod.Lex.left _ _ (by simp [_h])
  · exact Prod.Lex.right _ (by decide)
  · exact Prod.Lex.left _ _ (by simp [_h])
  · exact Prod.Lex.left _ _ (by simp [_h])

/-- Reads the further operands of a chain, `opened` of which have been joined to `lhs`; each keeps a
level open until the chain ends. -/
def links (k : Chain) (lhs : Expr) (opened : Nat) (c : Cursor) :
    Except Halt (NotLonger Expr c.rest.length) :=
  match _h : c.rest with
  | [] => .ok ⟨(lhs, ⟨[], c.depth - opened⟩), by simp⟩
  | t :: r =>
    match k.join? t.token with
    | none => .ok ⟨(lhs, ⟨t :: r, c.depth - opened⟩), by simp⟩
    | some join =>
      if c.depth < maxDepth then do
        let ⟨(rhs, c₁), h₁⟩ ← operand k.operand ⟨r, c.depth + 1⟩
        let ⟨p, h₂⟩ ← links k (join lhs rhs) (opened + 1) c₁
        return ⟨p, by simp at h₁ h₂ ⊢; omega⟩
      else .error ⟨r, .tooDeep⟩
termination_by (c.rest.length, 0)
decreasing_by
  · exact Prod.Lex.left _ _ (by simp [_h])
  · exact Prod.Lex.left _ _ (by simp [_h] at h₁ ⊢; omega)

def comparisons (c : Cursor) : Except Halt (NotLonger (List (Comparison × Expr)) c.rest.length) :=
  match _h : comparison? c.rest with
  | none => .ok ⟨([], c), Nat.le_refl _⟩
  | some (op, r) => do
    let ⟨(e, c₁), h₁⟩ ← operand (.chain .sum) ⟨r, c.depth⟩
    let ⟨(ops, c₂), h₂⟩ ← comparisons c₁
    return ⟨((op, e) :: ops, c₂), by
      have := comparison?_length_lt _h
      simp at h₁ h₂ ⊢; omega⟩
termination_by (c.rest.length, 0)
decreasing_by
  · exact Prod.Lex.left _ _ (comparison?_length_lt _h)
  · exact Prod.Lex.left _ _ (Nat.lt_trans h₁ (comparison?_length_lt _h))

/-- Reads the items of a list up to the closing bracket; a comma may stand after the last item. -/
def items (c : Cursor) : Except Halt (Shorter (List Expr) c.rest.length) :=
  match _h : c.rest with
  | [] => .error ⟨[], .unexpectedEnd⟩
  | t :: r =>
    if t.token = .rbracket then .ok ⟨([], ⟨r, c.depth⟩), by simp⟩
    else do
      let ⟨(e, c₁), h₁⟩ ← operand (.chain .or) c
      match _h' : c₁.rest with
      | [] => .error ⟨[], .expectedSeparator⟩
      | u :: r' =>
        if u.token = .rbracket then
          return ⟨([e], ⟨r', c₁.depth⟩), by simp [_h, _h'] at h₁ ⊢; omega⟩
        else if u.token = .comma then do
          let ⟨(es, c₂), h₂⟩ ← items ⟨r', c₁.depth⟩
          return ⟨(e :: es, c₂), by simp [_h, _h'] at h₁ h₂ ⊢; omega⟩
        else .error ⟨u :: r', .expectedSeparator⟩
termination_by (c.rest.length, 8)
decreasing_by
  · exact Prod.Lex.right _ (by decide)
  · exact Prod.Lex.left _ _ (by simp [_h'] at h₁ ⊢; omega)

end

/-! ## Whole expressions -/

/-- The expression that a list of tokens makes; a token after it is an error. -/
def parseTokens (ts : List Lexeme) : Except Halt Expr := do
  let ⟨(e, c), _⟩ ← operand (.chain .or) ⟨ts, 0⟩
  match c.rest with
  | [] => return e
  | t :: r => .error ⟨t :: r, .trailing t.token⟩

/-- The byte at which reading stopped: the start of the next token, or the end of the text. -/
def Halt.position (h : Halt) (stop : Nat) : Nat :=
  match h.rest with
  | [] => stop
  | t :: _ => t.offset

def parse (source : String) : Except Fault Expr := do
  let ts ← tokenize source
  match parseTokens ts with
  | .ok e => return e
  | .error h => .error (.malformed (h.position (Text.utf8Length source.toList)) h.problem)

end GuardTree.Formula
