import GuardTree.Decimal.Report
import GuardTree.Text.Quoted

/-! # Tokens of guard expressions

A `Lexeme` is a token with the byte at which it starts. `Token.report` is the name under which
messages about a malformed expression mention a token.
-/

namespace GuardTree.Formula

set_option autoImplicit false

inductive Token
  | int (n : Int64)
  | float (x : Float)
  | str (s : String)
  | ident (name : String)
  /-- A placeholder, `$NAME` or `${NAME}`. -/
  | var (name : String)
  | true
  | false
  | none
  | and
  | or
  | not
  | elem
  | eq
  | ne
  | lt
  | le
  | gt
  | ge
  | plus
  | minus
  | star
  | slash
  | percent
  | lparen
  | rparen
  | lbracket
  | rbracket
  | comma
deriving DecidableEq

structure Lexeme where
  token : Token
  offset : Nat
deriving DecidableEq

/-- The tokens of reserved words; every other word is an identifier. -/
def Token.ofWord (word : String) : Token :=
  match word with
  | "and" => .and
  | "or" => .or
  | "not" => .not
  | "in" => .elem
  | "True" => .true
  | "true" => .true
  | "False" => .false
  | "false" => .false
  | "None" => .none
  | word => .ident word

def Token.report : Token → String
  | .int n => "Int(" ++ toString n.toInt ++ ")"
  | .float x => "Float(" ++ Decimal.report.write x ++ ")"
  | .str s => "Str(" ++ Text.quoted s ++ ")"
  | .ident name => "Ident(" ++ Text.quoted name ++ ")"
  | .var name => "Var(" ++ Text.quoted name ++ ")"
  | .true => "True"
  | .false => "False"
  | .none => "None"
  | .and => "And"
  | .or => "Or"
  | .not => "Not"
  | .elem => "In"
  | .eq => "Eq"
  | .ne => "Ne"
  | .lt => "Lt"
  | .le => "Le"
  | .gt => "Gt"
  | .ge => "Ge"
  | .plus => "Plus"
  | .minus => "Minus"
  | .star => "Star"
  | .slash => "Slash"
  | .percent => "Percent"
  | .lparen => "LParen"
  | .rparen => "RParen"
  | .lbracket => "LBracket"
  | .rbracket => "RBracket"
  | .comma => "Comma"

end GuardTree.Formula
