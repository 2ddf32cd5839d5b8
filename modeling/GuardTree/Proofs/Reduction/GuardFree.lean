import GuardTree.Proofs.Reduction.Steps

/-! # A reduced tree has no guards

Whatever is left of a tree under keys alone is made of plain mappings: guards have decided wherever
they could be reached (`reduce_leaves_no_guard`). Lists are not gone into, so they may keep guards.
-/

namespace GuardTree

set_option autoImplicit false

namespace Engine

variable {e : Engine} {policy : Policy} {r : Option Resolver}

/-- No mapping that stands in a tree under keys alone has a guard among its keys. -/
def GuardFree (e : Engine) (n : Node) : Prop :=
  ∀ entries, n.Reaches (.mapping entries) → ∀ entry ∈ entries, e.isGuard entry.1 = false

theorem guardFree_of_entries?_eq_none {n : Node} (hn : n.entries? = none) : e.GuardFree n :=
  fun _ h => absurd h (Node.Reaches.mapping_of_entries?_eq_none hn)

theorem guardFree_mapping {entries : List (String × Node)}
    (hkeys : ∀ entry ∈ entries, e.isGuard entry.1 = false)
    (hvalues : ∀ entry ∈ entries, e.GuardFree entry.2) : e.GuardFree (.mapping entries) := by
  intro entries' h
  cases h with
  | refl => exact hkeys
  | under he h => exact hvalues _ he _ h

theorem forall_mem_right {α β : Type} {P : β → Prop} {xs : List α} {ys : List β}
    (h : List.Forall₂ (fun _ y => P y) xs ys) : ∀ y ∈ ys, P y := by
  induction h with
  | nil => simp
  | cons hy _ ih => exact List.forall_mem_cons.2 ⟨hy, ih⟩

theorem reduce_guardFree {n n' : Node} (h : (e.reduce policy r n).outcome = .ok n') :
    e.GuardFree n' := by
  refine reduce_ok_induction (motive := fun _ n' => e.GuardFree n')
    (fun _ hn => guardFree_of_entries?_eq_none hn)
    (fun _ _ _ _ _ hn => guardFree_of_entries?_eq_none hn) ?_ h
  intro entries expanded plain values results hx hc hv hr hvalues
  -- The keys are those that the last look at the guards has seen.
  have hplain := isGuarded_ok_false_iff.1 (collapse_plain hc)
  have hkeys : results.map Prod.fst = plain.map Prod.fst :=
    (keys_reduceEntries hr).trans (keys_expandValues hv)
  refine guardFree_mapping ?_ ?_
  · intro entry he
    have hmem : entry.1 ∈ plain.map Prod.fst := hkeys ▸ List.mem_map_of_mem he
    obtain ⟨entry', he', hk⟩ := List.mem_map.1 hmem
    rw [← hk]
    exact hplain entry' he'
  · exact forall_mem_right hvalues

/-- **No guard survives.** In the result of a reduction no mapping that stands under keys alone has
a guard among its keys, so none is guarded and none mixes guards with other keys. -/
theorem reduce_leaves_no_guard {n n' : Node} {entries : List (String × Node)}
    (h : (e.reduce policy r n).outcome = .ok n') (hm : n'.Reaches (.mapping entries)) :
    (∀ entry ∈ entries, e.isGuard entry.1 = false) ∧ (e.isGuarded entries).outcome = .ok false :=
  have hkeys := reduce_guardFree h entries hm
  ⟨hkeys, isGuarded_ok_false_iff.2 hkeys⟩

/-- A key becomes a guard, two guarded mappings are taken away in a row, and a third is left among
the values. -/
theorem reduce_leaves_no_guard_nested :
    ((ofTable [("cold", .bool false), ("hot", .bool true)]).reduce .last (some fun _ => some "hot")
      (.mapping [("$K", .mapping [("cold", .null), ("hot", .mapping [("a", .null),
        ("b", .mapping [("hot", .list []), ("cold", .null)])])]), ("cold", .list [])])).outcome =
        .ok (.mapping [("a", .null), ("b", .list [])]) ∧
      ((ofTable [("cold", .bool false), ("hot", .bool true)]).isGuarded
        [("a", .null), ("b", .list [])]).outcome = .ok false := by
  have hb : ((ofTable [("cold", .bool false), ("hot", .bool true)]).reduce .last
      (some fun _ => some "hot") (.mapping [("hot", .list []), ("cold", .null)])).outcome =
      .ok (.list []) := by
    refine reduce_mapping_ok_iff.2 ⟨[("hot", .list []), ("cold", .null)], ?_, .inl ⟨rfl, ?_⟩⟩
    · rw [expandKeys_eq]
      cbv
    · rw [collapse_ok_iff]
      exact .inr ⟨("hot", .list []), by cbv, by cbv, .inr ⟨rfl, rfl⟩⟩
  have h : ((ofTable [("cold", .bool false), ("hot", .bool true)]).reduce .last
      (some fun _ => some "hot") (.mapping [("$K", .mapping [("cold", .null),
        ("hot", .mapping [("a", .null), ("b", .mapping [("hot", .list []), ("cold", .null)])])]),
        ("cold", .list [])])).outcome = .ok (.mapping [("a", .null), ("b", .list [])]) := by
    refine reduce_mapping_ok_iff.2 ⟨[("cold", .list []), ("hot", .mapping [("cold", .null),
      ("hot", .mapping [("a", .null), ("b", .mapping [("hot", .list []), ("cold", .null)])])])], ?_,
      .inr ⟨[("a", .null), ("b", .mapping [("hot", .list []), ("cold", .null)])], _, _, ?_, rfl, ?_,
        rfl⟩⟩
    · rw [expandKeys_eq]
      cbv
    · rw [collapse_ok_iff]
      refine .inr ⟨_, by cbv, by cbv, .inl ⟨_, rfl, ?_⟩⟩
      rw [collapse_ok_iff]
      refine .inr ⟨_, by cbv, by cbv, .inl ⟨_, rfl, ?_⟩⟩
      rw [collapse_ok_iff]
      exact .inl ⟨by cbv, rfl⟩
    · rw [reduceEntries_ok_iff]
      refine .cons ⟨rfl, ?_⟩ (.cons ⟨rfl, hb⟩ .nil)
      rw [reduce_of_entries?_eq_none rfl]
      rfl
  exact ⟨h, (reduce_leaves_no_guard h (.refl _)).2⟩

end Engine

end GuardTree
