import GuardTree.Yaml.Document
import GuardTree.Yaml.Layout

/-! # Reading YAML

A text holds at most one document; without any it denotes null. Aliases are copied in. Keys that are
no texts become texts, so that they may collide; of several values for a key the last one counts, at
the place of the first. Sequences and mappings nest at most `maxNesting` deep.
-/

namespace GuardTree.Yaml

set_option autoImplicit false

def maxNesting : Nat := 128

/-- How many aliases may be followed for every part of a document. -/
def aliasesPerPart : Nat := 100

/-- Building with a limited number of aliases to follow. -/
abbrev Build := StateT Nat Option

/-- The trees that aliases stand for. -/
abbrev Targets := List (Nat × Tree Nat)

namespace Build

/-- A tree, or the one that an alias stands for. -/
def follow (targets : Targets) : Tree Nat → Build (Tree Nat)
  | .alias n => do
    match ← get with
    | 0 => failure
    | left + 1 =>
      set left
      match targets.lookup n with
      | some t => return t
      | none => failure
  | t => return t

/-- The key that a tree denotes, which has to be a scalar. -/
def key (targets : Targets) (t : Tree Nat) : Build String := do
  match ← follow targets t with
  | .scalar _ tag text plain =>
    StateT.lift ((resolveTagged tag plain text).bind (Resolved.key? text))
  | _ => failure

/-- The node that a tree denotes; `room` is how deep it may nest. -/
def node (targets : Targets) (room : Nat) (t : Tree Nat) : Build Node := do
  match ← follow targets t with
  | .scalar _ tag text plain =>
    Node.scalar <$> StateT.lift ((resolveTagged tag plain text).bind (Resolved.leaf? text))
  | .sequence _ tag items =>
    match room with
    | 0 => failure
    | room + 1 =>
      if tag == some .application then failure
      else return .list (← items.mapM (node targets room))
  | .mapping _ tag pairs =>
    match room with
    | 0 => failure
    | room + 1 =>
      if tag == some .application then failure
      else
        let entries ← pairs.mapM fun (k, v) => do
          let key ← key targets k
          return (key, ← node targets room v)
        return .ofMap (.ofList entries)
  | .alias _ => failure

end Build

def build? (t : Tree String) : Option Node := do
  let (t, _) ← t.number? []
  let limit := aliasesPerPart * t.size
  let (n, _) ← (Build.node t.anchored.reverse maxNesting t).run limit
  return n

def read? (text : String) : Option Node := do
  match ← document? (← tokens? text.toList) with
  | none => return .null
  | some t => build? t

end GuardTree.Yaml
