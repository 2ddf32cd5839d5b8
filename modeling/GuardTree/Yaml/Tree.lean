import GuardTree.Yaml.Schema

/-! # Trees of a YAML document

A `Tree` keeps what a document says before scalars are resolved: keys that are trees themselves,
tags, anchors and aliases. Anchors and aliases are names at first. `Tree.number?` replaces them by
numbers: an anchor's number is how many different names were used for anchors before it, and an
alias has the number of the last anchor before it with its name.
-/

namespace GuardTree.Yaml

set_option autoImplicit false

/-- A tree whose anchors and aliases are of type `α`. -/
inductive Tree (α : Type)
  | alias (target : α)
  | scalar (anchor : Option α) (tag : Option Tag) (text : String) (plain : Bool)
  | sequence (anchor : Option α) (tag : Option Tag) (items : List (Tree α))
  | mapping (anchor : Option α) (tag : Option Tag) (pairs : List (Tree α × Tree α))

namespace Tree

variable {α : Type}

/-- What stands where a node is left out. -/
def missing : Tree α := .scalar none none "" true

mutual

/-- The size of a tree: a collection counts its start and its end. -/
def size : Tree α → Nat
  | .alias _ => 1
  | .scalar _ _ _ _ => 1
  | .sequence _ _ items => 2 + sizeItems items
  | .mapping _ _ pairs => 2 + sizePairs pairs

def sizeItems : List (Tree α) → Nat
  | [] => 0
  | t :: ts => size t + sizeItems ts

def sizePairs : List (Tree α × Tree α) → Nat
  | [] => 0
  | (k, v) :: ps => size k + size v + sizePairs ps

end

/-! ## Anchors -/

/-- The anchors' names so far, with the number of the last anchor of each. -/
abbrev Names := List (String × Nat)

def define : Option String → Names → Option Nat × Names
  | none, names => (none, names)
  | some name, names =>
    (some names.length, (name, names.length) :: names.filter fun entry => entry.1 != name)

mutual

/-- The tree with numbers for names, in the order of the text; nothing if an alias has no anchor
before it. -/
def number? : Tree String → Names → Option (Tree Nat × Names)
  | .alias name, names => (names.lookup name).map fun n => (.alias n, names)
  | .scalar anchor tag text plain, names =>
    let (anchor, names) := define anchor names
    some (.scalar anchor tag text plain, names)
  | .sequence anchor tag items, names => do
    let (anchor, names) := define anchor names
    let (items, names) ← numberItems? items names
    return (.sequence anchor tag items, names)
  | .mapping anchor tag pairs, names => do
    let (anchor, names) := define anchor names
    let (pairs, names) ← numberPairs? pairs names
    return (.mapping anchor tag pairs, names)

def numberItems? : List (Tree String) → Names → Option (List (Tree Nat) × Names)
  | [], names => some ([], names)
  | t :: ts, names => do
    let (t, names) ← number? t names
    let (ts, names) ← numberItems? ts names
    return (t :: ts, names)

def numberPairs? : List (Tree String × Tree String) → Names →
    Option (List (Tree Nat × Tree Nat) × Names)
  | [], names => some ([], names)
  | (k, v) :: ps, names => do
    let (k, names) ← number? k names
    let (v, names) ← number? v names
    let (ps, names) ← numberPairs? ps names
    return ((k, v) :: ps, names)

end

/-- A tree under its anchor, if it has one. -/
def labelled (anchor : Option Nat) (t : Tree Nat) : List (Nat × Tree Nat) :=
  (anchor.map (·, t)).toList

mutual

/-- The trees that have an anchor, under its number, in the order of the text. -/
def anchored : Tree Nat → List (Nat × Tree Nat)
  | .alias _ => []
  | .scalar anchor tag text plain => labelled anchor (.scalar anchor tag text plain)
  | .sequence anchor tag items =>
    labelled anchor (.sequence anchor tag items) ++ anchoredItems items
  | .mapping anchor tag pairs => labelled anchor (.mapping anchor tag pairs) ++ anchoredPairs pairs

def anchoredItems : List (Tree Nat) → List (Nat × Tree Nat)
  | [] => []
  | t :: ts => anchored t ++ anchoredItems ts

def anchoredPairs : List (Tree Nat × Tree Nat) → List (Nat × Tree Nat)
  | [] => []
  | (k, v) :: ps => anchored k ++ anchored v ++ anchoredPairs ps

end

end Tree

end GuardTree.Yaml
