import GuardTree.Formula.Value

/-! # Guard expressions -/

namespace GuardTree.Formula

set_option autoImplicit false

inductive Comparison
  | eq
  | ne
  | lt
  | le
  | gt
  | ge
  | elem
  | notElem
deriving DecidableEq

inductive Arithmetic
  | add
  | sub
  | mul
  | div
  | rem
deriving DecidableEq

def Arithmetic.name : Arithmetic → String
  | .add => "Add"
  | .sub => "Sub"
  | .mul => "Mul"
  | .div => "Div"
  | .rem => "Rem"

/-- A guard expression. -/
inductive Expr
  | literal (v : Value)
  /-- A bare word, which stands for its own spelling. -/
  | ident (name : String)
  /-- A placeholder that has not been expanded. -/
  | var (name : String)
  | list (items : List Expr)
  | not (e : Expr)
  | neg (e : Expr)
  | and (l r : Expr)
  | or (l r : Expr)
  /-- A chain such as `a < b <= c`. -/
  | compare (first : Expr) (links : List (Comparison × Expr))
  | arith (op : Arithmetic) (l r : Expr)

/-- Whether the outermost construct yields a boolean. Connectives count, although they yield one of
their operands. -/
def Expr.isLogical : Expr → Bool
  | .compare _ _ => true
  | .and _ _ => true
  | .or _ _ => true
  | .not _ => true
  | .literal (.bool _) => true
  | _ => false

end GuardTree.Formula
