import GuardTree.Tree.Node

/-! # Number of nodes and depth of a tree

`Node.count` counts every node, those inside lists too; the entries of a mapping count as their
values. Inserting into a map never adds more than what is inserted.
-/

namespace GuardTree

set_option autoImplicit false

namespace Node

mutual

def count : Node → Nat
  | .scalar _ => 1
  | .list items => 1 + countItems items
  | .mapping entries => 1 + countEntries entries

def countItems : List Node → Nat
  | [] => 0
  | item :: items => item.count + countItems items

/-- The number of nodes in the values of some entries. -/
def countEntries : List (String × Node) → Nat
  | [] => 0
  | (_, value) :: entries => value.count + countEntries entries

end

mutual

/-- The number of nodes on the longest path from the root. -/
def depth : Node → Nat
  | .scalar _ => 1
  | .list items => 1 + depthItems items
  | .mapping entries => 1 + depthEntries entries

def depthItems : List Node → Nat
  | [] => 0
  | item :: items => max item.depth (depthItems items)

def depthEntries : List (String × Node) → Nat
  | [] => 0
  | (_, value) :: entries => max value.depth (depthEntries entries)

end

theorem count_pos (n : Node) : 0 < n.count := by
  cases n with
  | scalar _ => exact Nat.one_pos
  | list items => simp only [count]; omega
  | mapping entries => simp only [count]; omega

@[simp] theorem countEntries_nil : countEntries [] = 0 := rfl

@[simp] theorem countEntries_cons (e : String × Node) (es : List (String × Node)) :
    countEntries (e :: es) = e.2.count + countEntries es := rfl

theorem countEntries_append (xs ys : List (String × Node)) :
    countEntries (xs ++ ys) = countEntries xs + countEntries ys := by
  induction xs with
  | nil => simp
  | cons x xs ih => simp [ih, Nat.add_assoc]

theorem count_le_countEntries {e : String × Node} {es : List (String × Node)} (h : e ∈ es) :
    e.2.count ≤ countEntries es := by
  induction es with
  | nil => cases h
  | cons x xs ih =>
    rcases List.mem_cons.1 h with rfl | h
    · simp
    · have := ih h
      simp only [countEntries_cons]
      omega

theorem countEntries_filter_add (p : String × Node → Bool) (es : List (String × Node)) :
    countEntries (es.filter p) + countEntries (es.filter fun e => !p e) = countEntries es := by
  induction es with
  | nil => rfl
  | cons e es ih =>
    cases h : p e
    · simp only [List.filter_cons, h, countEntries_cons, Bool.false_eq_true, if_false, Bool.not_false,
        if_true]
      omega
    · simp only [List.filter_cons, h, countEntries_cons, Bool.not_true, Bool.false_eq_true, if_false,
        if_true]
      omega

theorem countEntries_set_le (es : List (String × Node)) (i : Nat) (e : String × Node) :
    countEntries (es.set i e) ≤ countEntries es + e.2.count := by
  induction es generalizing i with
  | nil => simp
  | cons x xs ih =>
    cases i with
    | zero => simp only [List.set_cons_zero, countEntries_cons]; omega
    | succ i =>
      have := ih i
      simp only [List.set_cons_succ, countEntries_cons]
      omega

theorem depth_pos (n : Node) : 0 < n.depth := by
  cases n with
  | scalar _ => exact Nat.one_pos
  | list items => simp only [depth]; omega
  | mapping entries => simp only [depth]; omega

theorem depthEntries_le_iff {es : List (String × Node)} {d : Nat} :
    depthEntries es ≤ d ↔ ∀ e ∈ es, e.2.depth ≤ d := by
  induction es with
  | nil => simp [depthEntries]
  | cons e es ih => rw [depthEntries, Nat.max_le, List.forall_mem_cons, ih]

theorem depth_le_depthEntries {e : String × Node} {es : List (String × Node)} (h : e ∈ es) :
    e.2.depth ≤ depthEntries es :=
  depthEntries_le_iff.1 (Nat.le_refl _) e h

end Node

namespace OrderedMap

open Node

theorem countEntries_insert_le (m : OrderedMap Node) (key : String) (value : Node) :
    countEntries (m.insert key value).2.toList ≤ countEntries m.toList + value.count := by
  unfold insert
  split
  · simp only [toList, Array.toList_setIfInBounds]
    exact countEntries_set_le _ _ _
  · simp [toList, countEntries_append]

theorem countEntries_insertAll_le (m : OrderedMap Node) (pairs : List (String × Node)) :
    countEntries (m.insertAll pairs).toList ≤ countEntries m.toList + countEntries pairs := by
  induction pairs generalizing m with
  | nil => simp [insertAll]
  | cons p ps ih =>
    have h₁ := ih (m.insert p.1 p.2).2
    have h₂ := m.countEntries_insert_le p.1 p.2
    simp only [insertAll, List.foldl_cons, countEntries_cons] at h₁ ⊢
    omega

theorem countEntries_ofList_le (pairs : List (String × Node)) :
    countEntries (ofList pairs).toList ≤ countEntries pairs := by
  have := (empty : OrderedMap Node).countEntries_insertAll_le pairs
  simpa [ofList, toList, empty] using this

end OrderedMap

end GuardTree
