import GuardTree.Proofs.Reduction.Runs
import GuardTree.Proofs.Tree.EntryLookup
import Mathlib

/-! # A reduction ends, and its result is no larger

What a guard selects stands in the mapping and is smaller than it (`select_smaller`), whatever the
engine answers, so guards cannot go on deciding forever (`selects_wellFounded`).

* `collapseWithin`, `reduceWithin`: the rounds of `collapse` and the levels of `reduce` on a budget.
  There is no result once it is used up.
* `collapseWithin_eq`, `reduceWithin_eq`: a budget of the depth of the tree is never used up.
* `reduce_noLarger`: a result has at most the nodes and the depth of what was reduced.
-/

namespace GuardTree

set_option autoImplicit false

namespace Traced

variable {α β : Type}

theorem bind_congr_of_ok {x : Traced α} {k l : α → Traced β}
    (h : ∀ a, x.outcome = .ok a → k a = l a) : x >>= k = x >>= l := by
  obtain ⟨a, ha⟩ | ⟨f, hf⟩ := x.ok_or_error
  · rw [bind_ok ha, bind_ok ha, h a ha]
  · rw [bind_error hf, bind_error hf]

theorem lift_bind {x : Traced α} {k : α → OptionT Traced β} {l : α → Traced β}
    (h : ∀ a, x.outcome = .ok a → k a = OptionT.lift (l a)) :
    OptionT.lift x >>= k = OptionT.lift (x >>= l) := by
  apply OptionT.ext
  simp only [OptionT.run_bind, OptionT.run_lift, Option.elimM, bind_assoc, pure_bind,
    Option.elim_some]
  exact bind_congr_of_ok fun a ha => by rw [h a ha, OptionT.run_lift]

theorem lift_mapM {f : α → OptionT Traced β} {g : α → Traced β} {xs : List α}
    (h : ∀ a ∈ xs, f a = OptionT.lift (g a)) : xs.mapM f = OptionT.lift (xs.mapM g) := by
  induction xs with
  | nil => rfl
  | cons a xs ih =>
    rw [List.forall_mem_cons] at h
    rw [List.mapM_cons, List.mapM_cons, h.1, ih h.2]
    exact lift_bind fun _ _ => lift_bind fun _ _ => rfl

end Traced

/-! ## Sizes -/

namespace Node

variable {xs ys : List (String × Node)}

/-- `m.NoLarger n`: `m` has at most the nodes and the depth of `n`. -/
structure NoLarger (m n : Node) : Prop where
  count_le : m.count ≤ n.count
  depth_le : m.depth ≤ n.depth

theorem NoLarger.refl (n : Node) : n.NoLarger n := ⟨Nat.le_refl _, Nat.le_refl _⟩

theorem NoLarger.trans {m n k : Node} (h : m.NoLarger n) (h' : n.NoLarger k) : m.NoLarger k :=
  ⟨h.count_le.trans h'.count_le, h.depth_le.trans h'.depth_le⟩

theorem noLarger_mapping_of_forall₂ (h : List.Forall₂ (fun x y => y.2.NoLarger x.2) xs ys) :
    (mapping ys).NoLarger (.mapping xs) := by
  induction h with
  | nil => exact .refl _
  | @cons x y xs ys hxy _ ih =>
    have hcount := ih.count_le
    have hdepth := ih.depth_le
    have hx := hxy.count_le
    have hy := hxy.depth_le
    simp only [count, depth] at hcount hdepth
    constructor
    · simp only [count, countEntries_cons]
      omega
    · simp only [depth, depthEntries]
      omega

end Node

namespace Engine

variable {e : Engine} {policy : Policy} {r : Option Resolver}
  {entries expanded plain values : List (String × Node)}

/-! ## No step makes a tree larger -/

theorem value_mem_expandKeys (hx : (e.expandKeys r entries).outcome = .ok expanded)
    {x : String × Node} (h : x ∈ expanded) : ∃ y ∈ entries, x.2 = y.2 := by
  rw [expandKeys_eq] at hx
  split at hx
  · obtain ⟨renamed, hr, hx⟩ := Traced.bind_outcome_eq_ok.1 hx
    cases hx
    obtain h | h := EntryList.mem_insertAll h
    · obtain h | h := EntryList.mem_insertAll h
      · cases h
      · exact ⟨x, (List.mem_filter.1 h).1, rfl⟩
    · obtain ⟨y, hy, hyx⟩ := Traced.exists_mem_of_forall₂ (Traced.forall₂_of_mapM hr) h
      exact ⟨y, (List.mem_filter.1 hy).1, renameEntry_snd hyx⟩
  · cases hx
    exact ⟨x, h, rfl⟩

theorem expandKeys_noLarger (hx : (e.expandKeys r entries).outcome = .ok expanded) :
    (Node.mapping expanded).NoLarger (.mapping entries) := by
  constructor
  · have := expandKeys_count_le hx
    simp only [Node.count]
    omega
  · have : Node.depthEntries expanded ≤ Node.depthEntries entries := by
      refine Node.depthEntries_le_iff.2 fun x h => ?_
      obtain ⟨y, hy, hxy⟩ := value_mem_expandKeys hx h
      exact hxy ▸ Node.depth_le_depthEntries hy
    simp only [Node.depth]
    omega

theorem expandValue_noLarger {x y : String × Node} (h : (expandValue r x).outcome = .ok y) :
    y.2.NoLarger x.2 := by
  obtain rfl | ⟨key, text, text', rfl, rfl, _⟩ := expandValue_cases h
  · exact .refl _
  · exact ⟨Nat.le_refl _, Nat.le_refl _⟩

theorem expandValues_noLarger (h : (expandValues r entries).outcome = .ok values) :
    (Node.mapping values).NoLarger (.mapping entries) :=
  Node.noLarger_mapping_of_forall₂ ((Traced.forall₂_of_mapM h).imp fun _ _ => expandValue_noLarger)

/-- **A selection goes down.** What is selected stands in the mapping, so it has fewer nodes and is
less deep. -/
theorem select_smaller {key : String} {value : Node}
    (h : (e.select policy entries).outcome = .ok (key, value)) :
    (key, value) ∈ entries ∧ value.count < (Node.mapping entries).count ∧
      value.depth < (Node.mapping entries).depth := by
  have hmem := select_mem h
  have hcount : value.count ≤ Node.countEntries entries := Node.count_le_countEntries hmem
  have hdepth : value.depth ≤ Node.depthEntries entries := Node.depth_le_depthEntries hmem
  simp only [Node.count, Node.depth]
  exact ⟨hmem, by omega, by omega⟩

theorem collapse_noLarger {n : Node} (h : (e.collapse policy entries).outcome = .ok n) :
    n.NoLarger (.mapping entries) := by
  induction entries using collapse_induction e policy with
  | mapping entries ih =>
    obtain ⟨_, rfl⟩ | ⟨⟨key, value⟩, _, hs, hn⟩ := collapse_ok_iff.1 h
    · exact .refl _
    · obtain ⟨_, hcount, hdepth⟩ := select_smaller hs
      have hvalue : value.NoLarger (.mapping entries) := ⟨hcount.le, hdepth.le⟩
      obtain ⟨inner, hv, hinner⟩ | ⟨_, rfl⟩ := hn
      · obtain rfl : value = .mapping inner := hv
        exact (ih key inner hs hinner).trans hvalue
      · exact hvalue

theorem reduce_noLarger {n n' : Node} (h : (e.reduce policy r n).outcome = .ok n') :
    n'.NoLarger n := by
  refine reduce_ok_induction (motive := fun n n' => n'.NoLarger n) (fun n _ => .refl n) ?_ ?_ h
  · intro entries expanded n hx hc _
    exact (collapse_noLarger hc).trans (expandKeys_noLarger hx)
  · intro entries expanded plain values results hx hc hv _ hvalues
    have hplain := (collapse_noLarger hc).trans (expandKeys_noLarger hx)
    exact (Node.noLarger_mapping_of_forall₂ hvalues).trans ((expandValues_noLarger hv).trans hplain)

/-- The values that a reduction goes on with have fewer nodes than the mapping and are less deep. -/
theorem value_smaller (hx : (e.expandKeys r entries).outcome = .ok expanded)
    (hc : (e.collapse policy expanded).outcome = .ok (.mapping plain))
    (hv : (expandValues r plain).outcome = .ok values) {entry : String × Node}
    (h : entry ∈ values) :
    entry.2.count < (Node.mapping entries).count ∧ entry.2.depth < (Node.mapping entries).depth := by
  have hvalues := (expandValues_noLarger hv).trans
    ((collapse_noLarger hc).trans (expandKeys_noLarger hx))
  have hcount := Node.count_le_countEntries h
  have hdepth := Node.depth_le_depthEntries h
  have hc' := hvalues.count_le
  have hd' := hvalues.depth_le
  rw [Node.count] at hc'
  rw [Node.depth] at hd'
  exact ⟨by omega, by omega⟩

/-! ## Rounds and levels on a budget -/

/-- `Selects inner entries`: some engine and policy go on with `inner` when they decide `entries`. -/
def Selects (inner entries : List (String × Node)) : Prop :=
  ∃ (e : Engine) (policy : Policy) (key : String),
    (e.select policy entries).outcome = .ok (key, .mapping inner)

/-- Even engines that change from one round to the next cannot go on forever. -/
theorem selects_wellFounded : WellFounded Selects :=
  Subrelation.wf (fun ⟨_, _, _, h⟩ => (select_smaller h).2.2)
    (measure fun entries => (Node.mapping entries).depth).wf

/-- `collapse` in so many rounds. -/
def collapseWithin (e : Engine) (policy : Policy) :
    Nat → List (String × Node) → OptionT Traced Node
  | 0, _ => failure
  | rounds + 1, entries => do
    if ← e.isGuarded entries then
      match (← e.select policy entries).2 with
      | .mapping inner => collapseWithin e policy rounds inner
      | value => return value
    else return .mapping entries

/-- `reduceValue` with the reduction of mappings given. -/
def reduceValueBy (reduceMapping : Node → OptionT Traced Node) (key : String) :
    Node → OptionT Traced Node
  | .mapping entries => do
    Traced.note (.descending key)
    reduceMapping (.mapping entries)
  | value => return value

/-- `reduce` in so many levels, each with as many rounds as it has levels left. -/
def reduceWithin (e : Engine) (policy : Policy) (r : Option Resolver) :
    Nat → Node → OptionT Traced Node
  | 0, _ => failure
  | levels + 1, .mapping entries => do
    match ← e.collapseWithin policy (levels + 1) (← e.expandKeys r entries) with
    | .mapping plain => do
      let values ← expandValues r plain
      let results ← values.mapM fun entry => do
        return (entry.1, ← reduceValueBy (reduceWithin e policy r levels) entry.1 entry.2)
      return .mapping results
    | n => return n
  | _ + 1, n => return n

theorem collapseWithin_eq {rounds : Nat} (h : (Node.mapping entries).depth ≤ rounds) :
    e.collapseWithin policy rounds entries = OptionT.lift (e.collapse policy entries) := by
  induction rounds generalizing entries with
  | zero =>
    have := Node.depth_pos (.mapping entries)
    omega
  | succ rounds ih =>
    rw [collapseWithin, collapse_eq_bind]
    refine Traced.lift_bind fun guarded _ => ?_
    cases guarded with
    | false => rfl
    | true =>
      refine Traced.lift_bind fun ⟨key, value⟩ hs => ?_
      have hlt := (select_smaller hs).2.2
      cases value with
      | mapping inner => exact ih (by omega)
      | scalar _ => rfl
      | list _ => rfl

theorem reduceValueBy_eq {reduceMapping : Node → OptionT Traced Node} {key : String} {n : Node}
    (h : reduceMapping n = OptionT.lift (e.reduce policy r n)) :
    reduceValueBy reduceMapping key n = OptionT.lift (e.reduceValue policy r key n) := by
  cases n with
  | mapping entries =>
    rw [reduceValue]
    exact Traced.lift_bind fun _ _ => h
  | scalar _ =>
    rw [reduceValue_of_entries?_eq_none rfl]
    rfl
  | list _ =>
    rw [reduceValue_of_entries?_eq_none rfl]
    rfl

theorem reduceWithin_eq {levels : Nat} {n : Node} (h : n.depth ≤ levels) :
    e.reduceWithin policy r levels n = OptionT.lift (e.reduce policy r n) := by
  induction levels generalizing n with
  | zero =>
    have := n.depth_pos
    omega
  | succ levels ih =>
    -- The expanded mapping is no deeper, which covers the rounds; its values are less deep.
    cases n with
    | scalar _ =>
      rw [reduce_of_entries?_eq_none rfl]
      rfl
    | list _ =>
      rw [reduce_of_entries?_eq_none rfl]
      rfl
    | mapping entries =>
      rw [reduceWithin, reduce_mapping_eq_bind]
      refine Traced.lift_bind fun expanded hx => ?_
      rw [collapseWithin_eq ((expandKeys_noLarger hx).depth_le.trans h)]
      refine Traced.lift_bind fun n hc => ?_
      cases n with
      | scalar _ => rfl
      | list _ => rfl
      | mapping plain =>
        refine Traced.lift_bind fun values hv => ?_
        have hentry : ∀ entry ∈ values,
            (do return (entry.1, ← reduceValueBy (e.reduceWithin policy r levels) entry.1 entry.2) :
              OptionT Traced (String × Node)) =
            OptionT.lift (do return (entry.1, ← e.reduceValue policy r entry.1 entry.2)) := by
          intro entry hm
          have hlt := (value_smaller hx hc hv hm).2
          rw [reduceValueBy_eq (ih (by omega))]
          exact Traced.lift_bind fun _ _ => rfl
        rw [reduceEntries_eq_mapM, Traced.lift_mapM hentry]
        exact Traced.lift_bind fun _ _ => rfl

/-- **A reduction ends, and its result is no larger.** Guards cannot go on deciding forever, even if
the engine changes its answers: what they select stands in the mapping, with fewer nodes and less
depth. So the rounds and the levels of a reduction are at most as many as the tree is deep, and a
result has at most its nodes and its depth, whatever texts are put in. -/
theorem reduce_ends_no_larger (e : Engine) (policy : Policy) (r : Option Resolver) (n : Node) :
    WellFounded Selects ∧
    (∀ entries key value, (e.select policy entries).outcome = .ok (key, value) →
      (key, value) ∈ entries ∧ value.count < (Node.mapping entries).count ∧
        value.depth < (Node.mapping entries).depth) ∧
    (∀ entries rounds, (Node.mapping entries).depth ≤ rounds →
      e.collapseWithin policy rounds entries = OptionT.lift (e.collapse policy entries)) ∧
    (∀ levels, n.depth ≤ levels →
      e.reduceWithin policy r levels n = OptionT.lift (e.reduce policy r n)) ∧
    ∀ n', (e.reduce policy r n).outcome = .ok n' → n'.count ≤ n.count ∧ n'.depth ≤ n.depth := by
  refine ⟨selects_wellFounded, ?_, ?_, ?_, ?_⟩
  · intro entries key value h
    exact select_smaller h
  · intro entries rounds h
    exact collapseWithin_eq h
  · intro levels h
    exact reduceWithin_eq h
  · intro n' h
    exact ⟨(reduce_noLarger h).count_le, (reduce_noLarger h).depth_le⟩

/-- A guard selects a mapping, and a second one decides below a key of it. One level is not enough
for that, four are. -/
theorem reduce_ends_no_larger_nested :
    ((ofTable [("hot", .bool true)]).reduceWithin .last none 1
      (.mapping [("hot", .mapping [("k", .mapping [("hot", .list [])])])])).run.outcome = .ok none ∧
    (ofTable [("hot", .bool true)]).reduceWithin .last none 4
        (.mapping [("hot", .mapping [("k", .mapping [("hot", .list [])])])]) =
      OptionT.lift ((ofTable [("hot", .bool true)]).reduce .last none
        (.mapping [("hot", .mapping [("k", .mapping [("hot", .list [])])])])) ∧
    ((ofTable [("hot", .bool true)]).reduce .last none
        (.mapping [("hot", .mapping [("k", .mapping [("hot", .list [])])])])).outcome =
      .ok (.mapping [("k", .list [])]) ∧
    (Node.mapping [("k", .list [])]).count ≤
      (Node.mapping [("hot", .mapping [("k", .mapping [("hot", .list [])])])]).count ∧
    (Node.mapping [("k", .list [])]).depth ≤
      (Node.mapping [("hot", .mapping [("k", .mapping [("hot", .list [])])])]).depth := by
  have hinner : ((ofTable [("hot", .bool true)]).reduce .last none
      (.mapping [("hot", .list [])])).outcome = .ok (.list []) := by
    refine reduce_mapping_ok_iff.2 ⟨[("hot", .list [])], by cbv, .inl ⟨rfl, ?_⟩⟩
    exact collapse_ok_iff.2 (.inr ⟨("hot", .list []), by cbv, by cbv, .inr ⟨rfl, rfl⟩⟩)
  have h : ((ofTable [("hot", .bool true)]).reduce .last none
      (.mapping [("hot", .mapping [("k", .mapping [("hot", .list [])])])])).outcome =
      .ok (.mapping [("k", .list [])]) := by
    refine reduce_mapping_ok_iff.2 ⟨_, by cbv, .inr
      ⟨[("k", .mapping [("hot", .list [])])], _, _, ?_, rfl, ?_, rfl⟩⟩
    · refine collapse_ok_iff.2 (.inr ⟨_, by cbv, by cbv, .inl ⟨_, rfl, ?_⟩⟩)
      exact collapse_ok_iff.2 (.inl ⟨by cbv, rfl⟩)
    · exact reduceEntries_ok_iff.2 (.cons ⟨rfl, hinner⟩ .nil)
  obtain ⟨_, _, _, hlevels, hsize⟩ := reduce_ends_no_larger (ofTable [("hot", .bool true)]) .last none
    (.mapping [("hot", .mapping [("k", .mapping [("hot", .list [])])])])
  exact ⟨by cbv, hlevels 4 (by decide), h, hsize _ h⟩

end Engine

end GuardTree
