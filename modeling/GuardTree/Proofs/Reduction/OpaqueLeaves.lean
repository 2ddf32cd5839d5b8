import GuardTree.Proofs.Reduction.GuardFaults
import GuardTree.Proofs.Reduction.Runs

/-! # Leaves that a reduction does not look into

Besides mappings only texts are looked into. `Node.mapLeaves` changes the other leaves of a tree,
lists as a whole, and every step of a reduction commutes with it: what a step reports stays, and its
result and its failure are those of the unchanged tree with the leaves changed (`mapOutcome`).
-/

namespace GuardTree

set_option autoImplicit false

/-! ## Changing leaves -/

/-- A leaf that is no text, or a list with all that is in it. -/
inductive OpaqueLeaf
  | null
  | bool (b : Bool)
  | integer (n : Int64)
  | float (x : Float)
  | list (items : List Node)

def OpaqueLeaf.node : OpaqueLeaf → Node
  | .null => .scalar .null
  | .bool b => .scalar (.bool b)
  | .integer n => .scalar (.integer n)
  | .float x => .scalar (.float x)
  | .list items => .list items

namespace Node

mutual

/-- The tree with its opaque leaves changed by `f`. -/
def mapLeaves (f : OpaqueLeaf → OpaqueLeaf) : Node → Node
  | .scalar .null => (f .null).node
  | .scalar (.bool b) => (f (.bool b)).node
  | .scalar (.integer n) => (f (.integer n)).node
  | .scalar (.float x) => (f (.float x)).node
  | .scalar (.string s) => .scalar (.string s)
  | .list items => (f (.list items)).node
  | .mapping entries => .mapping (mapLeavesEntries f entries)

/-- The entries with the opaque leaves in their values changed by `f`. -/
def mapLeavesEntries (f : OpaqueLeaf → OpaqueLeaf) : List (String × Node) → List (String × Node)
  | [] => []
  | (key, value) :: entries => (key, mapLeaves f value) :: mapLeavesEntries f entries

end

def mapLeavesEntry (f : OpaqueLeaf → OpaqueLeaf) (entry : String × Node) : String × Node :=
  (entry.1, entry.2.mapLeaves f)

variable {f : OpaqueLeaf → OpaqueLeaf}

theorem mapLeavesEntries_eq_map (entries : List (String × Node)) :
    mapLeavesEntries f entries = entries.map (mapLeavesEntry f) := by
  induction entries with
  | nil => rfl
  | cons entry entries ih =>
    rw [mapLeavesEntries, ih]
    rfl

theorem mapLeaves_mapping (entries : List (String × Node)) :
    (mapping entries).mapLeaves f = .mapping (entries.map (mapLeavesEntry f)) := by
  rw [mapLeaves, mapLeavesEntries_eq_map]

theorem eq_string_of_string? {n : Node} {s : String} (hs : n.string? = some s) :
    n = .scalar (.string s) := by
  cases n with
  | scalar leaf => cases leaf <;> cases hs; rfl
  | _ => cases hs

/-- What is no mapping and no text has no mapping or text put in its place. -/
theorem mapLeaves_eq_node {n : Node} (hn : n.entries? = none) (hs : n.string? = none) :
    ∃ leaf : OpaqueLeaf, n.mapLeaves f = leaf.node := by
  cases n with
  | mapping entries => cases hn
  | list items => exact ⟨_, rfl⟩
  | scalar leaf =>
    cases leaf with
    | string s => cases hs
    | _ => exact ⟨_, rfl⟩

theorem entries?_node (leaf : OpaqueLeaf) : leaf.node.entries? = none := by
  cases leaf <;> rfl

theorem string?_node (leaf : OpaqueLeaf) : leaf.node.string? = none := by
  cases leaf <;> rfl

theorem entries?_mapLeaves {n : Node} (hn : n.entries? = none) :
    (n.mapLeaves f).entries? = none := by
  cases hs : n.string? with
  | some s => rw [eq_string_of_string? hs]; rfl
  | none =>
    obtain ⟨leaf, hleaf⟩ := mapLeaves_eq_node hn hs
    rw [hleaf, entries?_node]

theorem string?_mapLeaves {n : Node} (hs : n.string? = none) :
    (n.mapLeaves f).string? = none := by
  obtain ⟨entries, rfl⟩ | hn := n.mapping_or_entries?_eq_none
  · rw [mapLeaves_mapping]
    rfl
  · obtain ⟨leaf, hleaf⟩ := mapLeaves_eq_node hn hs
    rw [hleaf, string?_node]

end Node

/-- The failure of the same cause for the tree with its leaves changed. -/
def Failure.mapLeaves (f : OpaqueLeaf → OpaqueLeaf) : Failure → Failure
  | .schema data => .schema (data.mapLeaves f)
  | .mixedGuard entries => .mixedGuard (entries.map (Node.mapLeavesEntry f))
  | .noGuardSatisfied entries => .noGuardSatisfied (entries.map (Node.mapLeavesEntry f))
  | fault => fault

/-! ## Changing outcomes -/

namespace Traced

variable {α β γ δ : Type}

/-- The run with its result changed by `g` and its failure by `h`. -/
def mapOutcome (g : α → β) (h : Failure → Failure) (x : Traced α) : Traced β where
  events := x.events
  outcome := match x.outcome with
    | .ok a => .ok (g a)
    | .error fault => .error (h fault)

variable {g : α → β} {h : Failure → Failure} {g' : γ → δ}

theorem mapOutcome_ok {x : Traced α} {a : α} (ha : x.outcome = .ok a) :
    (x.mapOutcome g h).outcome = .ok (g a) := by
  rw [mapOutcome, ha]

theorem mapOutcome_error {x : Traced α} {fault : Failure} (hx : x.outcome = .error fault) :
    (x.mapOutcome g h).outcome = .error (h fault) := by
  rw [mapOutcome, hx]

theorem mapOutcome_outcome_eq_ok {x : Traced α} {b : β} :
    (x.mapOutcome g h).outcome = .ok b ↔ ∃ a, x.outcome = .ok a ∧ b = g a := by
  obtain ⟨a, ha⟩ | ⟨fault, hf⟩ := x.ok_or_error
  · rw [mapOutcome_ok ha, ha]
    simp [eq_comm]
  · rw [mapOutcome_error hf, hf]
    simp

theorem mapOutcome_outcome_eq_error {x : Traced α} {fault' : Failure} :
    (x.mapOutcome g h).outcome = .error fault' ↔
      ∃ fault, x.outcome = .error fault ∧ fault' = h fault := by
  obtain ⟨a, ha⟩ | ⟨fault, hf⟩ := x.ok_or_error
  · rw [mapOutcome_ok ha, ha]
    simp
  · rw [mapOutcome_error hf, hf]
    simp [eq_comm]

theorem mapOutcome_pure (a : α) : (Pure.pure a : Traced α).mapOutcome g h = Pure.pure (g a) := rfl

/-- A run stays as it is if its failure does. -/
theorem mapOutcome_id {x : Traced α} (hx : ∀ fault, x.outcome = .error fault → h fault = fault) :
    x.mapOutcome id h = x := by
  refine Traced.ext rfl ?_
  obtain ⟨a, ha⟩ | ⟨fault, hf⟩ := x.ok_or_error
  · rw [mapOutcome_ok ha, ha]
    rfl
  · rw [mapOutcome_error hf, hf, hx fault hf]

theorem mapOutcome_bind {x : Traced α} {k : α → Traced γ} {x' : Traced β} {k' : β → Traced δ}
    (hx : x' = x.mapOutcome g h)
    (hk : ∀ a, x.outcome = .ok a → k' (g a) = (k a).mapOutcome g' h) :
    x' >>= k' = (x >>= k).mapOutcome g' h := by
  subst hx
  obtain ⟨a, ha⟩ | ⟨fault, hf⟩ := x.ok_or_error
  · rw [bind_ok (mapOutcome_ok ha), bind_ok ha, hk a ha]
    rfl
  · rw [bind_error (mapOutcome_error hf), bind_error hf]
    rfl

theorem mapOutcome_mapM {f : α → Traced γ} {f' : β → Traced δ} {xs : List α}
    (hf : ∀ a ∈ xs, f' (g a) = (f a).mapOutcome g' h) :
    (xs.map g).mapM f' = (xs.mapM f).mapOutcome (List.map g') h := by
  induction xs with
  | nil => rfl
  | cons a xs ih =>
    rw [List.forall_mem_cons] at hf
    rw [List.map_cons, List.mapM_cons, List.mapM_cons]
    refine mapOutcome_bind hf.1 fun b _ => ?_
    exact mapOutcome_bind (ih hf.2) fun bs _ => rfl

end Traced

/-! ## The steps of a reduction -/

namespace Engine

open Node

variable {e : Engine} {policy : Policy} {r : Option Resolver} {f : OpaqueLeaf → OpaqueLeaf}

theorem isGuarded_mapLeaves (entries : List (String × Node)) :
    e.isGuarded (entries.map (mapLeavesEntry f)) =
      (e.isGuarded entries).mapOutcome id (Failure.mapLeaves f) := by
  have hkeys : (entries.map (mapLeavesEntry f)).map Prod.fst = entries.map Prod.fst := by
    rw [List.map_map]
    rfl
  unfold isGuarded
  rw [hkeys]
  refine Traced.mapOutcome_bind (Traced.mapOutcome_id fun fault hf => ?_).symm fun guards _ => ?_
  · rw [mapM_check_outcome] at hf
    cases hf
  · dsimp only [id]
    split
    · rfl
    · split <;> rfl

/-- What a guard is refused for holds no tree. -/
theorem mapLeaves_of_takesPart_error {key : String} {fault : Failure}
    (h : (e.takesPart key).outcome = .error fault) : fault.mapLeaves f = fault := by
  unfold takesPart at h
  split at h
  · cases h
  · obtain ⟨-, rfl⟩ | ⟨_, -, rfl⟩ | ⟨_, -, rfl⟩ := holds_error h <;> rfl

theorem candidates_mapLeaves (keys : List String) :
    (e.candidates keys).mapOutcome id (Failure.mapLeaves f) = e.candidates keys := by
  refine Traced.mapOutcome_id fun fault hf => ?_
  obtain ⟨key, -, hkey⟩ := candidates_error hf
  exact mapLeaves_of_takesPart_error hkey

theorem lookup_mapLeaves (entries : List (String × Node)) (key : String) :
    (entries.map (mapLeavesEntry f)).lookup key = (entries.lookup key).map (mapLeaves f) := by
  induction entries with
  | nil => rfl
  | cons entry entries ih =>
    rw [List.map_cons, EntryList.lookup_cons, EntryList.lookup_cons, ih, apply_ite (Option.map _)]
    rfl

theorem select_mapLeaves (entries : List (String × Node)) :
    e.select policy (entries.map (mapLeavesEntry f)) =
      (e.select policy entries).mapOutcome (mapLeavesEntry f) (Failure.mapLeaves f) := by
  have hkeys : (entries.map (mapLeavesEntry f)).map Prod.fst = entries.map Prod.fst := by
    rw [List.map_map]
    rfl
  unfold select
  rw [hkeys]
  refine Traced.mapOutcome_bind (candidates_mapLeaves _).symm fun cs hcs => ?_
  dsimp only [id]
  cases hp : policy.pick (preferred cs) with
  | none => rfl
  | some key =>
    obtain ⟨value, hvalue⟩ := exists_lookup_of_mem_keys (mem_keys_of_pick hcs hp)
    dsimp only
    rw [lookup_mapLeaves, hvalue]
    rfl

theorem collapse_mapLeaves (entries : List (String × Node)) :
    e.collapse policy (entries.map (mapLeavesEntry f)) =
      (e.collapse policy entries).mapOutcome (mapLeaves f) (Failure.mapLeaves f) := by
  induction entries using collapse_induction e policy with
  | mapping entries ih =>
    rw [collapse_eq_bind, collapse_eq_bind]
    refine Traced.mapOutcome_bind (isGuarded_mapLeaves entries) fun guarded _ => ?_
    cases guarded with
    | false =>
      rw [id, if_neg Bool.false_ne_true, if_neg Bool.false_ne_true, Traced.mapOutcome_pure,
        mapLeaves_mapping]
    | true =>
      refine Traced.mapOutcome_bind (select_mapLeaves entries) fun entry hs => ?_
      obtain ⟨key, value⟩ := entry
      rw [mapLeavesEntry]
      obtain ⟨inner, rfl⟩ | hn := value.mapping_or_entries?_eq_none
      · rw [mapLeaves_mapping]
        exact ih key inner hs
      · rw [collapseNode_of_entries?_eq_none hn,
          collapseNode_of_entries?_eq_none (entries?_mapLeaves hn), Traced.mapOutcome_pure]

theorem expand_mapLeaves (text : String) :
    (Placeholder.expand r text).mapOutcome id (Failure.mapLeaves f) =
      Placeholder.expand r text := by
  refine Traced.mapOutcome_id fun fault hf => ?_
  obtain ⟨_, _, _, rfl⟩ := Placeholder.expand_error hf
  rfl

theorem renameEntry_mapLeaves (entry : String × Node) :
    renameEntry r (mapLeavesEntry f entry) =
      (renameEntry r entry).mapOutcome (mapLeavesEntry f) (Failure.mapLeaves f) :=
  Traced.mapOutcome_bind (expand_mapLeaves entry.1).symm fun _ _ => rfl

theorem expandKeys_mapLeaves (entries : List (String × Node)) :
    e.expandKeys r (entries.map (mapLeavesEntry f)) =
      (e.expandKeys r entries).mapOutcome (List.map (mapLeavesEntry f)) (Failure.mapLeaves f) := by
  have hfilter : ∀ p : String → Bool, (entries.map (mapLeavesEntry f)).filter (fun x => p x.1) =
      (entries.filter fun x => p x.1).map (mapLeavesEntry f) := fun p => List.filter_map
  have hany : ((entries.map (mapLeavesEntry f)).any fun x => e.hasPlaceholder x.1) =
      entries.any fun x => e.hasPlaceholder x.1 := List.any_map
  rw [expandKeys_eq, expandKeys_eq, hany, hfilter, hfilter fun key => !e.hasPlaceholder key]
  split
  · refine Traced.mapOutcome_bind
      (Traced.mapOutcome_mapM fun entry _ => renameEntry_mapLeaves entry) fun renamed _ => ?_
    have hkept := EntryList.insertAll_map (mapLeaves f) []
      (entries.filter fun x => !e.hasPlaceholder x.1)
    have hall := EntryList.insertAll_map (mapLeaves f)
      (EntryList.insertAll [] (entries.filter fun x => !e.hasPlaceholder x.1)) renamed
    rw [← hkept] at hall
    rw [Traced.mapOutcome_pure]
    exact congrArg pure hall
  · rfl

theorem expandValue_mapLeaves (entry : String × Node) :
    expandValue r (mapLeavesEntry f entry) =
      (expandValue r entry).mapOutcome (mapLeavesEntry f) (Failure.mapLeaves f) := by
  have hvalue : ∀ (key : String) (value : Node), value.string? = none →
      expandValue r (key, value) = pure (key, value) := by
    intro key value hs
    cases value with
    | scalar leaf =>
      cases leaf with
      | string s => cases hs
      | _ => rfl
    | _ => rfl
  obtain ⟨key, value⟩ := entry
  cases hs : value.string? with
  | some s =>
    obtain rfl := eq_string_of_string? hs
    exact Traced.mapOutcome_bind (expand_mapLeaves s).symm fun _ _ => rfl
  | none =>
    rw [mapLeavesEntry, hvalue key value hs, hvalue _ _ (string?_mapLeaves hs)]
    rfl

theorem reduceValue_mapLeaves {key : String} {n : Node}
    (h : e.reduce policy r (n.mapLeaves f) =
      (e.reduce policy r n).mapOutcome (mapLeaves f) (Failure.mapLeaves f)) :
    e.reduceValue policy r key (n.mapLeaves f) =
      (e.reduceValue policy r key n).mapOutcome (mapLeaves f) (Failure.mapLeaves f) := by
  obtain ⟨entries, rfl⟩ | hn := n.mapping_or_entries?_eq_none
  · rw [mapLeaves_mapping] at h ⊢
    rw [reduceValue, reduceValue]
    exact Traced.mapOutcome_bind (g := id) rfl fun _ _ => h
  · rw [reduceValue_of_entries?_eq_none hn, reduceValue_of_entries?_eq_none (entries?_mapLeaves hn)]
    rfl

theorem reduceEntries_mapLeaves {entries : List (String × Node)}
    (h : ∀ entry ∈ entries, e.reduce policy r (entry.2.mapLeaves f) =
      (e.reduce policy r entry.2).mapOutcome (mapLeaves f) (Failure.mapLeaves f)) :
    e.reduceEntries policy r (entries.map (mapLeavesEntry f)) =
      (e.reduceEntries policy r entries).mapOutcome (List.map (mapLeavesEntry f))
        (Failure.mapLeaves f) := by
  rw [reduceEntries_eq_mapM, reduceEntries_eq_mapM]
  refine Traced.mapOutcome_mapM fun entry he => ?_
  exact Traced.mapOutcome_bind (reduceValue_mapLeaves (h entry he)) fun _ _ => rfl

theorem reduce_mapLeaves (n : Node) :
    e.reduce policy r (n.mapLeaves f) =
      (e.reduce policy r n).mapOutcome (mapLeaves f) (Failure.mapLeaves f) := by
  induction n using reduce_induction e policy r with
  | leaf n hn =>
    rw [reduce_of_entries?_eq_none hn, reduce_of_entries?_eq_none (entries?_mapLeaves hn)]
    rfl
  | mapping entries ih =>
    rw [mapLeaves_mapping, reduce_mapping_eq_bind, reduce_mapping_eq_bind]
    refine Traced.mapOutcome_bind (expandKeys_mapLeaves entries) fun expanded hx => ?_
    refine Traced.mapOutcome_bind (collapse_mapLeaves expanded) fun n hc => ?_
    obtain ⟨plain, rfl⟩ | hn := n.mapping_or_entries?_eq_none
    · rw [mapLeaves_mapping]
      refine Traced.mapOutcome_bind
        (Traced.mapOutcome_mapM fun entry _ => expandValue_mapLeaves entry) fun values hv => ?_
      refine Traced.mapOutcome_bind (reduceEntries_mapLeaves fun entry he => ?_) fun results _ => ?_
      · exact ih expanded plain values hx hc hv entry he
      · rw [Traced.mapOutcome_pure, mapLeaves_mapping]
    · rw [reducePlain_of_entries?_eq_none hn,
        reducePlain_of_entries?_eq_none (entries?_mapLeaves hn), Traced.mapOutcome_pure]

/-- **A reduction is blind to opaque leaves.** If the numbers, booleans, nulls and lists of a tree
are changed, all in the same way, then the same names are looked up and the same guards are
selected. The reduction succeeds exactly if it did before, and its result is the former one with its
leaves changed. Otherwise it fails for the same cause, with the same guard or the same placeholder;
where the failure shows a tree, the leaves of that are changed. -/
theorem reduce_blind_to_leaves (f : OpaqueLeaf → OpaqueLeaf) (n : Node) :
    (e.reduce policy r (n.mapLeaves f)).events = (e.reduce policy r n).events ∧
      (∀ m, (e.reduce policy r (n.mapLeaves f)).outcome = .ok m ↔
        ∃ n', (e.reduce policy r n).outcome = .ok n' ∧ m = n'.mapLeaves f) ∧
      ∀ g, (e.reduce policy r (n.mapLeaves f)).outcome = .error g ↔
        ∃ fault, (e.reduce policy r n).outcome = .error fault ∧ g = fault.mapLeaves f := by
  rw [reduce_mapLeaves]
  exact ⟨rfl, fun _ => Traced.mapOutcome_outcome_eq_ok, fun _ => Traced.mapOutcome_outcome_eq_error⟩

end Engine

end GuardTree
