import GuardTree.Formula.Expr
import GuardTree.Formula.Token

/-! # What can be wrong with a guard expression

A `Fault` is a cause: a malformed text (`Problem`, with the byte it is found at), a placeholder that
was not expanded, operands that do not fit (`Misfit`), or a division by zero. An `Error` is a fault
with the expression it belongs to, and `Error.message` words it.
-/

namespace GuardTree.Formula

set_option autoImplicit false

inductive Problem
  | unexpectedChar (c : Char)
  | expectedChar (c : Char)
  | expectedName
  | unterminatedString
  | invalidNumber (text : String)
  | trailing (t : Token)
  | tooDeep
  | unexpectedEnd
  | expectedParen
  | unexpectedToken (t : Token)
  | expectedSeparator
deriving DecidableEq

def Problem.message : Problem → String
  | .unexpectedChar c => "unexpected character `" ++ c.toString ++ "`"
  | .expectedChar c => "expected `" ++ c.toString ++ "`"
  | .expectedName => "expected variable name after `$`"
  | .unterminatedString => "unterminated string literal"
  | .invalidNumber text => "invalid number `" ++ text ++ "`"
  | .trailing t => "unexpected trailing token " ++ t.report
  | .tooDeep => "expression nested too deeply"
  | .unexpectedEnd => "unexpected end of expression"
  | .expectedParen => "expected `)`"
  | .unexpectedToken t => "unexpected token " ++ t.report
  | .expectedSeparator => "expected `,` or `]`"

inductive Misfit
  | overflow
  | cannotNegate (k : Kind)
  | cannotOrderNaN
  | cannotOrder (l r : Kind)
  | cannotContain (item container : Kind)
  | unsupported (op : Arithmetic) (l r : Kind)
  /-- A table of answers has none for the expression. -/
  | noAnswer
deriving DecidableEq

def Misfit.message : Misfit → String
  | .overflow => "integer overflow"
  | .cannotNegate k => "cannot negate " ++ k.name
  | .cannotOrderNaN => "cannot order NaN"
  | .cannotOrder l r => "cannot order " ++ l.name ++ " and " ++ r.name
  | .cannotContain item container =>
    "cannot test membership of " ++ item.name ++ " in " ++ container.name
  | .unsupported op l r =>
    "unsupported operands for " ++ op.name ++ ": " ++ l.name ++ " and " ++ r.name
  | .noAnswer => "no scripted answer"

inductive Fault
  | malformed (position : Nat) (problem : Problem)
  | unresolvedVariable (name : String)
  | type (misfit : Misfit)
  | divisionByZero
deriving DecidableEq

/-- A fault and the expression it was found in. -/
structure Error where
  source : String
  fault : Fault
deriving DecidableEq

def Error.message (e : Error) : String :=
  match e.fault with
  | .malformed position problem =>
    "syntax error in `" ++ e.source ++ "` at offset " ++ toString position ++ ": " ++
      problem.message
  | .unresolvedVariable name => "unresolved variable `" ++ name ++ "` in `" ++ e.source ++ "`"
  | .type misfit => "type error in `" ++ e.source ++ "`: " ++ misfit.message
  | .divisionByZero => "division by zero in `" ++ e.source ++ "`"

end GuardTree.Formula
