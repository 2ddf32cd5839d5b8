import GuardTree.Reduction.Reduce

/-! # One reduction of a configuration

A `Session` holds a tree, which is a mapping at first, and may reduce it once. A reduction that
fails leaves the session as it was; one that succeeds puts its result in place of the tree, and
after it every further attempt fails.
-/

namespace GuardTree

set_option autoImplicit false

/-- Whether a session has been reduced. -/
inductive Stage
  | unreduced
  | reduced
deriving DecidableEq

def Stage.name : Stage → String
  | .unreduced => "unreduced"
  | .reduced => "reduced"

/-- A tree with the way in which it is to be reduced. -/
structure Session where
  engine : Engine
  policy : Policy
  data : Node
  stage : Stage

namespace Session

/-- A session on a tree, which has to be a mapping. -/
def start (engine : Engine) (policy : Policy) (data : Node) : Except Failure Session :=
  match data with
  | .mapping _ => .ok ⟨engine, policy, data, .unreduced⟩
  | data => .error (.schema data)

def reduce (s : Session) (r : Option Resolver) : Traced Session :=
  match s.stage, s.data with
  | .reduced, _ => Traced.fail .alreadyReduced
  | .unreduced, .mapping (entry :: entries) => do
    Traced.note (.reducing s.policy r.isSome)
    let data ← s.engine.reduce s.policy r (.mapping (entry :: entries))
    Traced.note (.reducedTo data.kind)
    Traced.note .reduced
    return { s with data := data, stage := .reduced }
  | .unreduced, _ => Traced.fail .emptyData

/-- The session after an attempt, whatever came of it. -/
def after (s : Session) (r : Option Resolver) : Session :=
  match (s.reduce r).outcome with
  | .ok s' => s'
  | .error _ => s

end Session

end GuardTree
