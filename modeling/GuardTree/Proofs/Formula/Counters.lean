import GuardTree.Formula.Parser

/-! # The parser by its two counters

The parser as a program that counts: it keeps the position of the next token and the number of open
levels, and a record of every value they take. A level is counted before one too many is refused.
Closing levels and going back a token subtract, and to go below zero is an ending of its own; so is
using up the budget on which the functions call each other.

* `Counting`: programs over the counters, which may halt.
* `Visit`: a call of one of the parser's functions, with the counters at its start, those that it
  passes through, the calls it makes included, and its ending.
* `Counting.operand`, `Counting.links`, `Counting.comparisons`, `Counting.items`: the parser.
-/

namespace GuardTree.Formula

set_option autoImplicit false

/-- The position of the next token and the number of open levels. -/
structure Counters where
  position : Nat
  depth : Nat
deriving DecidableEq

/-- How a program ends. -/
inductive Ending (α : Type)
  | returned (a : α) (c : Counters)
  | halted (c : Counters) (problem : Problem)
  /-- A counter would have gone below zero. -/
  | underflow
  /-- The budget was used up. -/
  | unfinished
deriving DecidableEq

/-- An ending without what is returned. -/
def Ending.outline {α : Type} : Ending α → Ending Unit
  | .returned _ c => .returned () c
  | .halted c problem => .halted c problem
  | .underflow => .underflow
  | .unfinished => .unfinished

/-- The functions of the parser: one for each level, and one for the items of a list. -/
inductive Routine
  | operand (l : Level)
  | items
deriving DecidableEq

/-- A call of a function of the parser. -/
structure Visit where
  routine : Routine
  start : Counters
  passed : List Counters
  ending : Ending Unit
deriving DecidableEq

/-- A run of a program: the counters it passes through, its calls, and its ending. -/
structure Counted (α : Type) where
  passed : List Counters
  visits : List Visit
  ending : Ending α

def Counting (α : Type) := Counters → Counted α

namespace Counting

variable {α β : Type}

def pure (a : α) : Counting α := fun c => ⟨[], [], .returned a c⟩

/-- Goes on with what a run returns. -/
def andThen (x : Counted α) (f : α → Counting β) : Counted β :=
  match x.ending with
  | .returned a c =>
    let y := f a c
    ⟨x.passed ++ y.passed, x.visits ++ y.visits, y.ending⟩
  | .halted c problem => ⟨x.passed, x.visits, .halted c problem⟩
  | .underflow => ⟨x.passed, x.visits, .underflow⟩
  | .unfinished => ⟨x.passed, x.visits, .unfinished⟩

instance : Monad Counting where
  pure := Counting.pure
  bind x f := fun c => andThen (x c) f

/-! ## Steps -/

def moveTo (c : Counters) : Counting Unit := fun _ => ⟨[c], [], .returned () c⟩

def halt (problem : Problem) : Counting α := fun c => ⟨[], [], .halted c problem⟩

def underflow : Counting α := fun _ => ⟨[], [], .underflow⟩

def unfinished : Counting α := fun _ => ⟨[], [], .unfinished⟩

/-- Passes `n` tokens. -/
def pass (n : Nat) : Counting Unit := fun c => moveTo ⟨c.position + n, c.depth⟩ c

/-- Goes back to the token before. -/
def back : Counting Unit := fun c =>
  if 1 ≤ c.position then moveTo ⟨c.position - 1, c.depth⟩ c else underflow c

/-- Opens a level, which is counted even if it is one too many. -/
def enter : Counting Unit := fun c =>
  andThen (moveTo ⟨c.position, c.depth + 1⟩ c) fun _ =>
    if maxDepth < c.depth + 1 then halt .tooDeep else pure ()

/-- Closes `n` levels. -/
def leave (n : Nat) : Counting Unit := fun c =>
  if n ≤ c.depth then moveTo ⟨c.position, c.depth - n⟩ c else underflow c

/-- The tokens from the position on. -/
def ahead (ts : List Lexeme) : Counting (List Lexeme) :=
  fun c => ⟨[], [], .returned (ts.drop c.position) c⟩

/-- Passes the next token if it is `t`, and tells whether it is. -/
def eat (ts : List Lexeme) (t : Token) : Counting Bool := do
  match ← ahead ts with
  | u :: _ =>
    if u.token = t then do
      pass 1
      return true
    else return false
  | [] => return false

/-- Passes the next token, if there is one, and returns it. -/
def advance (ts : List Lexeme) : Counting (Option Token) := do
  match ← ahead ts with
  | u :: _ =>
    pass 1
    return some u.token
  | [] => return none

/-- Runs a function of the parser, which is a call of it. -/
def called (routine : Routine) (x : Counting α) : Counting α := fun c =>
  let y := x c
  ⟨y.passed, ⟨routine, c, y.passed, y.ending.outline⟩ :: y.visits, y.ending⟩

end Counting

/-! ## The parser -/

/-- The number of tokens of an operator. -/
def Comparison.width : Comparison → Nat
  | .notElem => 2
  | _ => 1

namespace Counting

mutual

/-- Reads an expression of a level, on a budget of nested calls. -/
def operand (ts : List Lexeme) : Nat → Level → Counting Expr
  | 0, _ => unfinished
  | budget + 1, l => called (.operand l) <|
    match l with
    | .chain k => do
      let lhs ← operand ts budget k.operand
      links ts budget k lhs 0
    | .negation => do
      if ← eat ts .not then do
        enter
        let e ← operand ts budget .negation
        leave 1
        return .not e
      else operand ts budget .comparison
    | .comparison => do
      let first ← operand ts budget (.chain .sum)
      let ops ← comparisons ts budget
      return if ops.isEmpty then first else .compare first ops
    | .unary => do
      if ← eat ts .minus then do
        enter
        let e ← operand ts budget .unary
        leave 1
        return .neg e
      else operand ts budget .primary
    | .primary => do
      match ← advance ts with
      | none => halt .unexpectedEnd
      | some t =>
        match leaf? t with
        | some e => return e
        | none =>
          if t = .lparen then do
            enter
            let e ← operand ts budget (.chain .or)
            if ← eat ts .rparen then do
              leave 1
              return e
            else halt .expectedParen
          else if t = .lbracket then do
            enter
            let es ← called .items (items ts budget)
            leave 1
            return .list es
          else do
            back
            halt (.unexpectedToken t)

/-- Reads the further operands of a chain and then closes the levels that they have opened. -/
def links (ts : List Lexeme) : Nat → Chain → Expr → Nat → Counting Expr
  | 0, _, _, _ => unfinished
  | budget + 1, k, lhs, opened => do
    match (← ahead ts).head?.bind fun t => k.join? t.token with
    | none =>
      leave opened
      return lhs
    | some join =>
      pass 1
      enter
      let rhs ← operand ts budget k.operand
      links ts budget k (join lhs rhs) (opened + 1)

def comparisons (ts : List Lexeme) : Nat → Counting (List (Comparison × Expr))
  | 0 => unfinished
  | budget + 1 => do
    match comparison? (← ahead ts) with
    | none => return []
    | some (op, _) =>
      pass op.width
      let e ← operand ts budget (.chain .sum)
      let ops ← comparisons ts budget
      return (op, e) :: ops

/-- Reads the items of a list up to the closing bracket. -/
def items (ts : List Lexeme) : Nat → Counting (List Expr)
  | 0 => unfinished
  | budget + 1 => do
    if ← eat ts .rbracket then return []
    else do
      let e ← operand ts budget (.chain .or)
      if ← eat ts .rbracket then return [e]
      else if ← eat ts .comma then do
        let es ← items ts budget
        return e :: es
      else halt .expectedSeparator

end

/-- Reads a whole expression; a token after it is an error. -/
def expression (ts : List Lexeme) (budget : Nat) : Counting Expr := do
  let e ← operand ts budget (.chain .or)
  match ← ahead ts with
  | [] => return e
  | t :: _ => halt (.trailing t.token)

end Counting

end GuardTree.Formula
