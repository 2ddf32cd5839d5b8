import GuardTree.Formula.Parser

/-! # Evaluation of guard expressions

* `compare`, `arith`: one comparison, one arithmetic operation.
* `Expr.eval`: the value of a tree. `and` and `or` yield the operand that decides, and evaluate none
  after it; a comparison chain evaluates each operand at most once and stops at the first link that
  fails.
* `evaluate`: the value of a text.

Integer results are exact or refused; a quotient is always a floating-point number.
-/

namespace GuardTree.Formula

set_option autoImplicit false

/-! ## Comparisons -/

/-- The order of two values of one kind, or of two numbers as floating-point numbers. -/
def order (l r : Value) : Except Fault Ordering :=
  match l, r with
  | .str a, .str b => .ok (compareOfLessAndEq a b)
  | .bool a, .bool b => .ok (compareOfLessAndEq a b)
  | l, r =>
    match l.float?, r.float? with
    | some a, some b =>
      if a < b then .ok .lt
      else if a == b then .ok .eq
      else if b < a then .ok .gt
      else .error (.type .cannotOrderNaN)
    | _, _ => .error (.type (.cannotOrder l.kind r.kind))

/-- Whether the characters of `part` stand together somewhere in a text. -/
def occursIn (part : List Char) : List Char → Bool
  | [] => part.isEmpty
  | c :: r => part.isPrefixOf (c :: r) || occursIn part r

/-- Whether a list holds a value equal to `item`, or a text holds the text `item`. -/
def contains (container item : Value) : Except Fault Bool :=
  match container, item with
  | .list items, item => .ok (items.any (·.equal item))
  | .str text, .str part => .ok (occursIn part.toList text.toList)
  | container, item => .error (.type (.cannotContain item.kind container.kind))

def compare (op : Comparison) (l r : Value) : Except Fault Bool :=
  match op with
  | .eq => .ok (l.equal r)
  | .ne => .ok (!l.equal r)
  | .lt => (order l r).map (· == .lt)
  | .le => (order l r).map (· != .gt)
  | .gt => (order l r).map (· == .gt)
  | .ge => (order l r).map (· != .lt)
  | .elem => contains r l
  | .notElem => (contains r l).map (!·)

/-! ## Arithmetic -/

/-- An integer that fits 64 bits, as a value. -/
def exact (n : Int) : Except Fault Value :=
  if Int64.minValue.toInt ≤ n ∧ n ≤ Int64.maxValue.toInt then .ok (.int (Int64.ofInt n))
  else .error (.type .overflow)

def floats (op : Arithmetic) (l r : Value) : Except Fault (Float × Float) :=
  match l.float?, r.float? with
  | some a, some b => .ok (a, b)
  | _, _ => .error (.type (.unsupported op l.kind r.kind))

def floatArith (op : Arithmetic) (a b : Float) : Except Fault Value :=
  match op with
  | .add => .ok (.float (a + b))
  | .sub => .ok (.float (a - b))
  | .mul => .ok (.float (a * b))
  | .div => if b == 0.0 then .error .divisionByZero else .ok (.float (a / b))
  | .rem => if b == 0.0 then .error .divisionByZero else .ok (.float (a - b * (a / b).floor))

/-- The remainder with the sign of the divisor: that of the quotient without its fraction, and one
divisor more where it has the other sign. -/
def remainder (a b : Int64) : Int64 :=
  let rest := a % b
  if rest ≠ 0 ∧ decide (rest < 0) ≠ decide (b < 0) then rest + b else rest

/-- An operation on integers. The remainder of the least integer by minus one is refused, as the
integer quotient does not fit. -/
def intArith (op : Arithmetic) (a b : Int64) : Except Fault Value :=
  match op with
  | .add => exact (a.toInt + b.toInt)
  | .sub => exact (a.toInt - b.toInt)
  | .mul => exact (a.toInt * b.toInt)
  | .div => floatArith .div (Float.ofInt a.toInt) (Float.ofInt b.toInt)
  | .rem =>
    if b = 0 then .error .divisionByZero
    else if a = Int64.minValue ∧ b = -1 then .error (.type .overflow)
    else .ok (.int (remainder a b))

/-- One arithmetic operation; a sum of texts is one after the other. -/
def arith (op : Arithmetic) (l r : Value) : Except Fault Value :=
  match op, l, r with
  | .add, .str a, .str b => .ok (.str (a ++ b))
  | op, .int a, .int b => intArith op a b
  | op, l, r => do
    let (a, b) ← floats op l r
    floatArith op a b

def negate : Value → Except Fault Value
  | .int n => exact (-n.toInt)
  | .float x => .ok (.float (-x))
  | v => .error (.type (.cannotNegate v.kind))

/-! ## Expressions -/

mutual

def Expr.eval : Expr → Except Fault Value
  | .literal v => .ok v
  | .ident name => .ok (.str name)
  | .var name => .error (.unresolvedVariable name)
  | .list es => do return .list (← evalAll es)
  | .not e => do return .bool !(← e.eval).truthy
  | .neg e => do negate (← e.eval)
  | .and l r => do
    let v ← l.eval
    if v.truthy then r.eval else return v
  | .or l r => do
    let v ← l.eval
    if v.truthy then return v else r.eval
  | .compare first links => do
    let v ← first.eval
    return .bool (← evalLinks v links)
  | .arith op l r => do
    let a ← l.eval
    let b ← r.eval
    arith op a b

/-- The values of the items of a list, in order. -/
def evalAll : List Expr → Except Fault (List Value)
  | [] => .ok []
  | e :: es => do
    let v ← e.eval
    return v :: (← evalAll es)

/-- Whether all links of a chain hold, the operand before them being `lhs`. -/
def evalLinks (lhs : Value) : List (Comparison × Expr) → Except Fault Bool
  | [] => .ok true
  | (op, e) :: links => do
    let rhs ← e.eval
    if ← compare op lhs rhs then evalLinks rhs links else return false

end

def evaluate (source : String) : Except Error Value :=
  match parse source >>= Expr.eval with
  | .ok v => .ok v
  | .error fault => .error ⟨source, fault⟩

end GuardTree.Formula
