import GuardTree.Formula.Eval
import GuardTree.Placeholder.Basic

/-! # What counts as a guard

An `Engine` classifies keys and evaluates the guards among them, so that reduction does not depend
on the language of guards. The `formulas` engine reads them as guard expressions; `ofTable` knows
its guards and their values by heart.
-/

namespace GuardTree

set_option autoImplicit false

inductive Verdict
  | guard
  | plain
  /-- Plain, because it is no expression at all. -/
  | unreadable (error : Formula.Error)

def Verdict.isGuard : Verdict → Bool
  | .guard => true
  | _ => false

/-- A language of guards. -/
structure Engine where
  classify : String → Verdict
  /-- Whether a text still has a placeholder. -/
  hasPlaceholder : String → Bool
  evaluate : String → Except Formula.Error Formula.Value

/-- The key that wins when no guard is true. -/
def otherwiseKey : String := "else"

namespace Engine

def isGuard (e : Engine) (key : String) : Bool := (e.classify key).isGuard

/-- A key is a guard if it is `else` or its outermost construct is logical, whether or not its
placeholders are expanded. -/
def classifyFormula (key : String) : Verdict :=
  if key = otherwiseKey then .guard
  else match Formula.parse key with
    | .ok e => if e.isLogical then .guard else .plain
    | .error fault => .unreadable ⟨key, fault⟩

def formulas : Engine where
  classify := classifyFormula
  hasPlaceholder := Placeholder.occursIn
  evaluate := Formula.evaluate

/-- The guards are `else` and the keys of a table, which gives their values; of several entries for
a key the last one counts. -/
def ofTable (answers : List (String × Formula.Value)) : Engine where
  classify key :=
    if key = otherwiseKey ∨ (answers.lookup key).isSome then .guard else .plain
  hasPlaceholder := Placeholder.occursIn
  evaluate guard :=
    match answers.reverse.lookup guard with
    | some v => .ok v
    | none => .error ⟨guard, .type .noAnswer⟩

end Engine

end GuardTree
