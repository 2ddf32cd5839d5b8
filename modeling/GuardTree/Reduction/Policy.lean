/-! # Which of several satisfied guards wins -/

namespace GuardTree

set_option autoImplicit false

/-- The rule among several guards that are true. -/
inductive Policy
  /-- The first in the order of the mapping wins. -/
  | first
  /-- The last in the order of the mapping wins. -/
  | last
deriving DecidableEq

namespace Policy

def default : Policy := .last

def name : Policy → String
  | .first => "first"
  | .last => "last"

/-- The rule of a name, which is spelt exactly. -/
def ofName? (s : String) : Option Policy :=
  if s = "first" then some .first else if s = "last" then some .last else none

theorem ofName?_eq_some_iff {s : String} {p : Policy} : ofName? s = some p ↔ s = p.name := by
  unfold ofName?
  split
  · rename_i h
    subst h
    cases p <;> simp [name]
  · split
    · rename_i h
      subst h
      cases p <;> simp [name]
    · cases p <;> simp_all [name]

/-- The item that the rule picks from a list. -/
def pick {α : Type} : Policy → List α → Option α
  | .first, xs => xs.head?
  | .last, xs => xs.getLast?

theorem pick_mem {α : Type} {p : Policy} {xs : List α} {x : α} (h : p.pick xs = some x) :
    x ∈ xs := by
  cases p with
  | first => exact List.mem_of_head? h
  | last => exact List.mem_of_getLast? h

theorem pick_eq_some_iff {α : Type} {p : Policy} {xs : List α} {x : α} :
    p.pick xs = some x ↔ p = .first ∧ xs.head? = some x ∨ p = .last ∧ xs.getLast? = some x := by
  cases p <;> simp [pick]

theorem pick_eq_none_iff {α : Type} {p : Policy} {xs : List α} : p.pick xs = none ↔ xs = [] := by
  cases p with
  | first => exact List.head?_eq_none_iff
  | last => exact List.getLast?_eq_none_iff

end Policy

end GuardTree
