import GuardTree.Proofs.Tree.EntryList
import GuardTree.Reduction.Reduce
import Mathlib

/-! # What a reduction that succeeds has gone through

* `collapse_eq_bind`, `reduce_mapping_eq_bind`: a reduction as the sequence of its steps.
* `collapse_ok_iff`, `reduceEntries_ok_iff`, `reduce_mapping_ok_iff`: the results of the steps of a
  reduction in terms of the results of the steps below them.
* `Node.Reaches`: what stands in a tree under keys alone, lists being closed.
* `reduce_ok_induction`: a property of trees and their reduced trees holds if it holds of what is
  left as it is, of what a guard selects, and of a mapping whose values have it. The recursion goes
  on with a branch that was selected, which need not be a value of the mapping; it has fewer nodes.
-/

namespace GuardTree

set_option autoImplicit false

namespace Traced

theorem forall₂_of_mapM {α β : Type} {f : α → Traced β} {xs : List α} {ys : List β}
    (h : (xs.mapM f).outcome = .ok ys) : List.Forall₂ (fun x y => (f x).outcome = .ok y) xs ys := by
  induction xs generalizing ys with
  | nil =>
    rw [List.mapM_nil] at h
    cases h
    exact .nil
  | cons x xs ih =>
    rw [List.mapM_cons] at h
    obtain ⟨y, hy, h⟩ := bind_outcome_eq_ok.1 h
    obtain ⟨ys', hys, h⟩ := bind_outcome_eq_ok.1 h
    cases h
    exact .cons hy (ih hys)

theorem exists_mem_of_forall₂ {α β : Type} {R : α → β → Prop} {xs : List α} {ys : List β}
    (h : List.Forall₂ R xs ys) {y : β} (hy : y ∈ ys) : ∃ x ∈ xs, R x y := by
  induction h with
  | nil => cases hy
  | @cons x _ _ _ hxy _ ih =>
    obtain rfl | hy := List.mem_cons.1 hy
    · exact ⟨x, List.mem_cons_self, hxy⟩
    · obtain ⟨x', hx', hxy'⟩ := ih hy
      exact ⟨x', List.mem_cons_of_mem _ hx', hxy'⟩

/-- What stands at the place of `y`, with what stands before it on either side. -/
theorem exists_split_of_forall₂ {α β : Type} {R S : α → β → Prop} {xs : List α} {ys : List β}
    (hR : List.Forall₂ R xs ys) (hS : List.Forall₂ S xs ys) {y : β} (hy : y ∈ ys) :
    ∃ before x after before', xs = before ++ x :: after ∧ List.Forall₂ R before before' ∧
      R x y ∧ S x y := by
  induction hR with
  | nil => cases hy
  | @cons x y' xs ys hxy _ ih =>
    obtain _ | ⟨hxy', hS⟩ := hS
    obtain rfl | hy := List.mem_cons.1 hy
    · exact ⟨[], x, xs, [], rfl, .nil, hxy, hxy'⟩
    · obtain ⟨before, z, after, before', rfl, hbefore, hz⟩ := ih hS hy
      exact ⟨x :: before, z, after, y' :: before', rfl, .cons hxy hbefore, hz⟩

theorem pure_outcome_eq_ok {α : Type} {a b : α} :
    (Pure.pure a : Traced α).outcome = .ok b ↔ b = a := by
  constructor
  · intro h
    exact (Except.ok.inj h).symm
  · rintro rfl
    rfl

theorem bind_outcome_eq_error {α β : Type} {x : Traced α} {k : α → Traced β} {f : Failure}
    (h : (x >>= k).outcome = .error f) :
    x.outcome = .error f ∨ ∃ a, x.outcome = .ok a ∧ (k a).outcome = .error f := by
  obtain ⟨a, ha⟩ | ⟨g, hg⟩ := x.ok_or_error
  · rw [bind_ok ha] at h
    exact .inr ⟨a, ha, h⟩
  · rw [bind_error hg] at h
    cases h
    exact .inl hg

theorem bindWith_congr {α β : Type} {x : Traced α} {k : (a : α) → x.outcome = .ok a → Traced β}
    {l : α → Traced β} (h : ∀ a ha, k a ha = l a) : x.bindWith k = x >>= l := by
  obtain rfl : k = fun a _ => l a := by
    funext a ha
    exact h a ha
  rfl

end Traced

namespace Node

theorem mapping_or_entries?_eq_none (n : Node) :
    (∃ entries, n = .mapping entries) ∨ n.entries? = none := by
  cases n with
  | mapping entries => exact .inl ⟨entries, rfl⟩
  | _ => exact .inr rfl

/-- `n.Reaches m`: `m` is `n` itself or stands in it under keys alone. -/
inductive Reaches : Node → Node → Prop
  | refl (n : Node) : Reaches n n
  | under {entries : List (String × Node)} {entry : String × Node} {m : Node}
      (he : entry ∈ entries) (h : Reaches entry.2 m) : Reaches (.mapping entries) m

theorem Reaches.trans {n m k : Node} (h : n.Reaches m) (h' : m.Reaches k) : n.Reaches k := by
  induction h with
  | refl => exact h'
  | under he _ ih => exact .under he (ih h')

theorem Reaches.mapping_of_entries?_eq_none {n : Node} {entries : List (String × Node)}
    (hn : n.entries? = none) : ¬ n.Reaches (.mapping entries) := by
  intro h
  cases h with
  | refl => cases hn
  | under => cases hn

end Node

namespace Engine

variable {e : Engine} {policy : Policy} {r : Option Resolver}

/-! ## Guards -/

theorem check_outcome (key : String) : (e.check key).outcome = .ok (e.isGuard key) := by
  unfold check isGuard
  cases e.classify key <;> rfl

theorem mapM_check_outcome (keys : List String) :
    (keys.mapM e.check).outcome = .ok (keys.map e.isGuard) := by
  induction keys with
  | nil => rfl
  | cons key keys ih =>
    rw [List.mapM_cons, Traced.bind_outcome_eq_ok]
    refine ⟨_, check_outcome key, ?_⟩
    rw [Traced.bind_outcome_eq_ok]
    exact ⟨_, ih, rfl⟩

/-- A mapping is plain exactly if none of its keys is a guard; a mixture is a failure. -/
theorem isGuarded_ok_false_iff {entries : List (String × Node)} :
    (e.isGuarded entries).outcome = .ok false ↔ ∀ entry ∈ entries, e.isGuard entry.1 = false := by
  have hall : ((entries.map Prod.fst).map e.isGuard).all (!·) = true ↔
      ∀ entry ∈ entries, e.isGuard entry.1 = false := by
    simp [List.all_eq_true]
  rw [isGuarded, Traced.bind_outcome_eq_ok, ← hall]
  constructor
  · rintro ⟨guards, hg, h⟩
    rw [mapM_check_outcome] at hg
    cases hg
    split at h
    · assumption
    · split at h <;> cases h
  · intro h
    refine ⟨_, mapM_check_outcome _, ?_⟩
    rw [if_pos h]
    rfl

/-- The guards of what has been selected decide in their turn. -/
def collapseNode (e : Engine) (policy : Policy) : Node → Traced Node
  | .mapping entries => e.collapse policy entries
  | n => return n

theorem collapseNode_of_entries?_eq_none {n : Node} (hn : n.entries? = none) :
    e.collapseNode policy n = pure n := by
  cases n with
  | mapping entries => cases hn
  | _ => rfl

theorem collapseNode_ok_iff {n n' : Node} :
    (e.collapseNode policy n).outcome = .ok n' ↔
      (∃ inner, n = .mapping inner ∧ (e.collapse policy inner).outcome = .ok n') ∨
        (n.entries? = none ∧ n' = n) := by
  obtain ⟨inner, rfl⟩ | hn := n.mapping_or_entries?_eq_none
  · simp [collapseNode, Node.entries?]
  · rw [collapseNode_of_entries?_eq_none hn, Traced.pure_outcome_eq_ok]
    constructor
    · exact fun h => .inr ⟨hn, h⟩
    · rintro (⟨inner, rfl, -⟩ | ⟨-, h⟩)
      · cases hn
      · exact h

theorem collapse_eq_bind (entries : List (String × Node)) :
    e.collapse policy entries = (do
      if ← e.isGuarded entries then
        let entry ← e.select policy entries
        e.collapseNode policy entry.2
      else return .mapping entries) := by
  rw [collapse]
  congr 1
  funext guarded
  split
  · refine Traced.bindWith_congr fun entry _ => ?_
    obtain ⟨key, value⟩ := entry
    cases value <;> rfl
  · rfl

theorem collapse_ok_iff {entries : List (String × Node)} {n : Node} :
    (e.collapse policy entries).outcome = .ok n ↔
      ((e.isGuarded entries).outcome = .ok false ∧ n = .mapping entries) ∨
      ∃ entry, (e.isGuarded entries).outcome = .ok true ∧
        (e.select policy entries).outcome = .ok entry ∧
        ((∃ inner, entry.2 = .mapping inner ∧ (e.collapse policy inner).outcome = .ok n) ∨
          (entry.2.entries? = none ∧ n = entry.2)) := by
  simp only [← collapseNode_ok_iff]
  rw [collapse_eq_bind, Traced.bind_outcome_eq_ok]
  constructor
  · rintro ⟨guarded, hg, h⟩
    cases guarded with
    | false => exact .inl ⟨hg, Traced.pure_outcome_eq_ok.1 h⟩
    | true =>
      obtain ⟨entry, hs, h⟩ := Traced.bind_outcome_eq_ok.1 h
      exact .inr ⟨entry, hg, hs, h⟩
  · rintro (⟨hg, rfl⟩ | ⟨entry, hg, hs, h⟩)
    · exact ⟨false, hg, rfl⟩
    · exact ⟨true, hg, Traced.bind_outcome_eq_ok.2 ⟨entry, hs, h⟩⟩

theorem collapse_plain {entries plain : List (String × Node)}
    (h : (e.collapse policy entries).outcome = .ok (.mapping plain)) :
    (e.isGuarded plain).outcome = .ok false := by
  induction hk : Node.countEntries entries using Nat.strongRecOn generalizing entries with
  | _ k ih =>
    obtain ⟨hg, hn⟩ | ⟨entry, _, hs, ⟨inner, hv, hc⟩ | ⟨hn, hv⟩⟩ := collapse_ok_iff.1 h
    · cases hn
      exact hg
    · have hle := Node.count_le_countEntries (select_mem hs)
      rw [hv, Node.count] at hle
      exact ih _ (by omega) hc rfl
    · rw [← hv] at hn
      cases hn

/-! ## The steps for one mapping -/

theorem expandKeys_eq (entries : List (String × Node)) :
    e.expandKeys r entries =
      if entries.any fun entry => e.hasPlaceholder entry.1 then do
        let renamed ← (entries.filter fun entry => e.hasPlaceholder entry.1).mapM (renameEntry r)
        return EntryList.insertAll
          (EntryList.insertAll [] (entries.filter fun entry => !e.hasPlaceholder entry.1)) renamed
      else return entries := by
  simp only [expandKeys, OrderedMap.toList_insertAll, OrderedMap.toList_ofList]

theorem reduce_of_entries?_eq_none {n : Node} (hn : n.entries? = none) :
    e.reduce policy r n = pure n := by
  cases n with
  | mapping entries => cases hn
  | scalar s => rw [reduce]; simp
  | list items => rw [reduce]; simp

theorem reduceValue_outcome (key : String) (n : Node) :
    (e.reduceValue policy r key n).outcome = (e.reduce policy r n).outcome := by
  cases n with
  | mapping entries =>
    rw [reduceValue, Traced.bind_ok (a := ()) rfl]
  | scalar s =>
    rw [reduceValue, reduce_of_entries?_eq_none rfl]
    simp
  | list items =>
    rw [reduceValue, reduce_of_entries?_eq_none rfl]
    simp

/-- The values that are expanded are texts. -/
theorem mem_expandValues {entries values : List (String × Node)} {x : String × Node}
    (h : (expandValues r entries).outcome = .ok values) (hx : x ∈ values) :
    x ∈ entries ∨ ∃ leaf, x.2 = .scalar leaf := by
  obtain ⟨y, hy, hyx⟩ := Traced.exists_mem_of_forall₂ (Traced.forall₂_of_mapM h) hx
  obtain rfl | ⟨key, text, text', rfl, rfl, _⟩ := expandValue_cases hyx
  · exact .inl hy
  · exact .inr ⟨.string text', rfl⟩

theorem mapping_mem_of_expandValues {entries values inner : List (String × Node)} {key : String}
    (h : (expandValues r entries).outcome = .ok values) (hm : (key, .mapping inner) ∈ values) :
    (key, .mapping inner) ∈ entries := by
  obtain hm | ⟨leaf, hleaf⟩ := mem_expandValues h hm
  · exact hm
  · cases hleaf

/-- Keys stay, and every value is reduced by itself. -/
theorem reduceEntries_ok_iff {entries entries' : List (String × Node)} :
    (e.reduceEntries policy r entries).outcome = .ok entries' ↔
      List.Forall₂ (fun x y => y.1 = x.1 ∧ (e.reduce policy r x.2).outcome = .ok y.2)
        entries entries' := by
  induction entries generalizing entries' with
  | nil =>
    rw [reduceEntries, Traced.pure_outcome_eq_ok]
    simp
  | cons entry entries ih =>
    rw [reduceEntries, Traced.bind_outcome_eq_ok, List.forall₂_cons_left_iff]
    simp only [reduceValue_outcome, Traced.bind_outcome_eq_ok, Traced.pure_outcome_eq_ok, ih]
    constructor
    · rintro ⟨value, hv, others, ho, rfl⟩
      exact ⟨(entry.1, value), others, ⟨rfl, hv⟩, ho, rfl⟩
    · rintro ⟨⟨key, value⟩, others, ⟨hk, hv⟩, ho, rfl⟩
      cases hk
      exact ⟨value, hv, others, ho, rfl⟩

/-- The reduction of what guards have left. -/
def reducePlain (e : Engine) (policy : Policy) (r : Option Resolver) : Node → Traced Node
  | .mapping plain => do
    let values ← expandValues r plain
    return .mapping (← e.reduceEntries policy r values)
  | n => return n

theorem reducePlain_of_entries?_eq_none {n : Node} (hn : n.entries? = none) :
    e.reducePlain policy r n = pure n := by
  cases n with
  | mapping entries => cases hn
  | _ => rfl

theorem reduce_mapping_eq_bind (entries : List (String × Node)) :
    e.reduce policy r (.mapping entries) = (do
      let expanded ← e.expandKeys r entries
      let n ← e.collapse policy expanded
      e.reducePlain policy r n) := by
  rw [reduce]
  refine Traced.bindWith_congr fun expanded _ => Traced.bindWith_congr fun n _ => ?_
  cases n <;> rfl

/-- What a mapping becomes: something else that guards select, or a mapping again. -/
theorem reduce_mapping_ok_iff {entries : List (String × Node)} {n : Node} :
    (e.reduce policy r (.mapping entries)).outcome = .ok n ↔
      ∃ expanded, (e.expandKeys r entries).outcome = .ok expanded ∧
        ((n.entries? = none ∧ (e.collapse policy expanded).outcome = .ok n) ∨
          ∃ plain values results, (e.collapse policy expanded).outcome = .ok (.mapping plain) ∧
            (expandValues r plain).outcome = .ok values ∧
            (e.reduceEntries policy r values).outcome = .ok results ∧ n = .mapping results) := by
  rw [reduce_mapping_eq_bind, Traced.bind_outcome_eq_ok]
  refine exists_congr fun expanded => and_congr_right fun _ => ?_
  rw [Traced.bind_outcome_eq_ok]
  constructor
  · rintro ⟨m, hc, h⟩
    obtain ⟨plain, rfl⟩ | hm := m.mapping_or_entries?_eq_none
    · obtain ⟨values, hv, h⟩ := Traced.bind_outcome_eq_ok.1 h
      obtain ⟨results, hr, h⟩ := Traced.bind_outcome_eq_ok.1 h
      exact .inr ⟨plain, values, results, hc, hv, hr, Traced.pure_outcome_eq_ok.1 h⟩
    · rw [reducePlain_of_entries?_eq_none hm] at h
      obtain rfl := Traced.pure_outcome_eq_ok.1 h
      exact .inl ⟨hm, hc⟩
  · rintro (⟨hn, hc⟩ | ⟨plain, values, results, hc, hv, hr, rfl⟩)
    · exact ⟨n, hc, by rw [reducePlain_of_entries?_eq_none hn]; rfl⟩
    · refine ⟨_, hc, Traced.bind_outcome_eq_ok.2 ⟨values, hv, ?_⟩⟩
      exact Traced.bind_outcome_eq_ok.2 ⟨results, hr, rfl⟩

/-! ## Keys -/

theorem keys_of_forall₂ {R : String × Node → String × Node → Prop}
    (hR : ∀ x y, R x y → y.1 = x.1) {xs ys : List (String × Node)} (h : List.Forall₂ R xs ys) :
    ys.map Prod.fst = xs.map Prod.fst := by
  induction h with
  | nil => rfl
  | cons hxy _ ih => rw [List.map_cons, List.map_cons, hR _ _ hxy, ih]

theorem expandValue_fst {entry entry' : String × Node}
    (h : (expandValue r entry).outcome = .ok entry') : entry'.1 = entry.1 := by
  obtain rfl | ⟨key, text, text', rfl, rfl, _⟩ := expandValue_cases h <;> rfl

theorem keys_expandValues {entries values : List (String × Node)}
    (h : (expandValues r entries).outcome = .ok values) :
    values.map Prod.fst = entries.map Prod.fst :=
  keys_of_forall₂ (fun _ _ => expandValue_fst) (Traced.forall₂_of_mapM h)

theorem keys_reduceEntries {entries entries' : List (String × Node)}
    (h : (e.reduceEntries policy r entries).outcome = .ok entries') :
    entries'.map Prod.fst = entries.map Prod.fst :=
  keys_of_forall₂ (fun _ _ hxy => hxy.1) (reduceEntries_ok_iff.1 h)

/-! ## Induction along a reduction -/

/-- A property of a tree and its reduced tree, step by step: `leaf` for what is no mapping,
`branch` for a mapping that guards replace by something else, and `mapping` for one that stays a
mapping or is replaced by one. -/
theorem reduce_ok_induction {motive : Node → Node → Prop}
    (leaf : ∀ n, n.entries? = none → motive n n)
    (branch : ∀ entries expanded n, (e.expandKeys r entries).outcome = .ok expanded →
      (e.collapse policy expanded).outcome = .ok n → n.entries? = none →
      motive (.mapping entries) n)
    (mapping : ∀ entries expanded plain values results,
      (e.expandKeys r entries).outcome = .ok expanded →
      (e.collapse policy expanded).outcome = .ok (.mapping plain) →
      (expandValues r plain).outcome = .ok values →
      (e.reduceEntries policy r values).outcome = .ok results →
      List.Forall₂ (fun x y => motive x.2 y.2) values results →
      motive (.mapping entries) (.mapping results))
    {n n' : Node} (h : (e.reduce policy r n).outcome = .ok n') : motive n n' := by
  -- The values of the mapping that is left have fewer nodes than `n`, whichever branch it was.
  induction hk : n.count using Nat.strongRecOn generalizing n n' with
  | _ k ih =>
    cases n with
    | scalar s =>
      rw [reduce_of_entries?_eq_none rfl] at h
      cases h
      exact leaf _ rfl
    | list items =>
      rw [reduce_of_entries?_eq_none rfl] at h
      cases h
      exact leaf _ rfl
    | mapping entries =>
      obtain ⟨expanded, hx, ⟨hn, hc⟩ | ⟨plain, values, results, hc, hv, hr, rfl⟩⟩ :=
        reduce_mapping_ok_iff.1 h
      · exact branch _ _ _ hx hc hn
      · refine mapping _ _ _ _ _ hx hc hv hr ?_
        have h₁ := expandKeys_count_le hx
        have h₂ := collapse_count_le hc
        have h₃ := expandValues_count hv
        have hpairs := reduceEntries_ok_iff.1 hr
        rw [List.forall₂_iff_zip] at hpairs ⊢
        refine ⟨hpairs.1, fun {x y} hxy => ih _ ?_ (hpairs.2 hxy).2 rfl⟩
        have h₄ := Node.count_le_countEntries (List.of_mem_zip hxy).1
        simp only [Node.count] at hk h₂
        omega

end Engine

end GuardTree
