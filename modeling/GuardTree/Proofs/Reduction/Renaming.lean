import GuardTree.Proofs.Reduction.KeyExpansion

/-! # Keys expanded one after the other

`expandKeys` inserts the entries whose keys had placeholders all at once, after the others. As long
as no key is renamed to one that is still to be renamed, this is what comes of renaming the keys one
after the other in the map itself (`renameKeys`): `expandKeys_renames_in_order`.
-/

namespace GuardTree

set_option autoImplicit false

namespace Traced

variable {α β : Type}

theorem exists_map_eq_ok_iff {o : Except Failure α} {g : α → β} :
    (∃ b, o.map g = .ok b) ↔ ∃ a, o = .ok a := by
  cases o <;> simp [Except.map]

theorem exists_mapM_ok_iff {f : α → Traced β} {xs : List α} :
    (∃ ys, (xs.mapM f).outcome = .ok ys) ↔ ∀ x ∈ xs, ∃ y, (f x).outcome = .ok y := by
  induction xs with
  | nil => exact ⟨fun _ x hx => absurd hx List.not_mem_nil, fun _ => ⟨[], rfl⟩⟩
  | cons x xs ih =>
    rw [List.forall_mem_cons, ← ih, List.mapM_cons]
    simp only [bind_outcome_eq_ok, pure_outcome_eq_ok]
    constructor
    · rintro ⟨_, y, hy, ys, hys, -⟩
      exact ⟨⟨y, hy⟩, ys, hys⟩
    · rintro ⟨⟨y, hy⟩, ys, hys⟩
      exact ⟨_, y, hy, ys, hys, rfl⟩

/-- A run over a list fails for the first item that fails. -/
theorem mapM_outcome_eq_error_iff {f : α → Traced β} {xs : List α} {fault : Failure} :
    (xs.mapM f).outcome = .error fault ↔
      ∃ x, xs.find? (fun x => (f x).fails) = some x ∧ (f x).outcome = .error fault := by
  induction xs with
  | nil =>
    constructor
    · intro h
      cases h
    · rintro ⟨x, h, -⟩
      cases h
  | cons x xs ih =>
    rw [List.mapM_cons]
    obtain ⟨y, hy⟩ | ⟨g, hg⟩ := (f x).ok_or_error
    · have hx : (f x).fails = false := by rw [fails, hy]
      rw [bind_ok hy, outcome_bind_pure]
      simp only [List.find?_cons, hx, ← ih]
      cases (xs.mapM f).outcome <;> simp [Except.map]
    · have hx : (f x).fails = true := by rw [fails, hg]
      rw [bind_error hg]
      simp [hx, hg]

end Traced

namespace OrderedMap

variable {α : Type}

/-- Takes a key out and inserts its value under a name. -/
def rename (m : OrderedMap α) (key name : String) : OrderedMap α :=
  match m.erase key with
  | (some value, rest) => (rest.insert name value).2
  | (none, rest) => rest

theorem toList_rename {m : OrderedMap α} {key : String} {value : α} (h : m.get? key = some value)
    (name : String) :
    (m.rename key name).toList = EntryList.insert (EntryList.erase m.toList key) name value := by
  rcases he : m.erase key with ⟨old, rest⟩
  have hold : old = some value := by
    rw [← h, ← m.erase_fst, he]
  have hrest : rest.toList = EntryList.erase m.toList key := by
    rw [← m.toList_erase, he]
  rw [rename, he, hold]
  dsimp only
  rw [toList_insert, hrest]

end OrderedMap

namespace Engine

variable {e : Engine} {r : Option Resolver} {entries expanded : List (String × Node)}
  {m : OrderedMap Node}

/-! ## One key after the other -/

/-- The keys that are expanded, in order. -/
def placeholderKeys (e : Engine) (m : OrderedMap Node) : List String :=
  m.keys.filter e.hasPlaceholder

/-- Expands keys in turn: each is taken out, and its value inserted under its new name. -/
def renameKeys (r : Option Resolver) : List String → OrderedMap Node → Traced (OrderedMap Node)
  | [], m => return m
  | key :: keys, m => do
    let name ← Placeholder.expand r key
    renameKeys r keys (m.rename key name)

/-- `todo` are the entries still to be renamed; they stand in `es`, which `done` were inserted into. -/
theorem renameKeys_outcome {todo es done : List (String × Node)}
    (hm : m.toList = EntryList.insertAll es done)
    (hes : ∀ x ∈ todo, es.lookup x.1 = some x.2)
    (hdone : ∀ x ∈ todo, x.1 ∉ done.map Prod.fst)
    (hd : (todo.map Prod.fst).Nodup)
    (hlater : (todo.map Prod.fst).Pairwise fun key later =>
      (Placeholder.expand r key).outcome ≠ .ok later) :
    (renameKeys r (todo.map Prod.fst) m).outcome.map OrderedMap.toList =
      (todo.mapM (renameEntry r)).outcome.map fun renamed =>
        EntryList.insertAll (es.filter fun x => x.1 ∉ todo.map Prod.fst) (done ++ renamed) := by
  induction todo generalizing es done m with
  | nil =>
    have hall : (es.filter fun x => x.1 ∉ ([] : List (String × Node)).map Prod.fst) = es := by simp
    rw [hall, List.mapM_nil]
    show Except.ok m.toList = Except.ok (EntryList.insertAll es (done ++ []))
    rw [hm, List.append_nil]
  | cons x todo ih =>
    rw [List.forall_mem_cons] at hes hdone
    rw [List.map_cons, List.nodup_cons] at hd
    rw [List.map_cons, List.pairwise_cons] at hlater
    rw [List.map_cons, renameKeys, List.mapM_cons]
    obtain ⟨name, hname⟩ | ⟨f, hf⟩ := (Placeholder.expand r x.1).ok_or_error
    · have hrenamed : (renameEntry r x).outcome = .ok (name, x.2) := by
        rw [renameEntry_outcome, hname]
        rfl
      have hget : m.get? x.1 = some x.2 := by
        have hnone : done.reverse.lookup x.1 = none := by
          rw [EntryList.lookup_eq_none_iff_not_mem, List.map_reverse, List.mem_reverse]
          exact hdone.1
        rw [m.get?_eq_lookup, hm, EntryList.lookup_insertAll, hnone, hes.1]
        rfl
      have hnext : (m.rename x.1 name).toList =
          EntryList.insertAll (EntryList.erase es x.1) (done ++ [(name, x.2)]) := by
        rw [OrderedMap.toList_rename hget, hm, EntryList.erase_insertAll hdone.1,
          EntryList.insertAll_append]
        rfl
      have hne : ∀ y ∈ todo, y.1 ≠ x.1 := fun y hy heq => hd.1 (heq ▸ List.mem_map_of_mem hy)
      have hfilter : ((EntryList.erase es x.1).filter fun y => y.1 ∉ todo.map Prod.fst) =
          es.filter fun y => y.1 ∉ (x :: todo).map Prod.fst := by
        rw [EntryList.erase, List.filter_filter]
        refine List.filter_congr fun y _ => ?_
        simp only [List.map_cons, List.mem_cons, not_or, Bool.decide_and, Bool.and_comm]
      rw [Traced.bind_ok hname, Traced.bind_ok hrenamed, Traced.outcome_bind_pure]
      dsimp only
      rw [ih hnext (fun y hy => ?_) (fun y hy => ?_) hd.2 hlater.2, hfilter]
      · cases (todo.mapM (renameEntry r)).outcome with
        | ok renamed =>
          show Except.ok (EntryList.insertAll _ (done ++ [(name, x.2)] ++ renamed)) = Except.ok _
          rw [List.append_assoc]
          rfl
        | error => rfl
      · rw [EntryList.lookup_erase_of_ne (hne y hy), hes.2 y hy]
      · rw [List.map_append, List.mem_append, not_or]
        refine ⟨hdone.2 y hy, fun hmem => ?_⟩
        obtain rfl := List.mem_singleton.1 hmem
        exact hlater.1 y.1 (List.mem_map_of_mem hy) hname
    · have hrenamed : (renameEntry r x).outcome = .error f := by
        rw [renameEntry_outcome, hf]
        rfl
      rw [Traced.bind_error hf, Traced.bind_error hrenamed]
      rfl

theorem placeholderKeys_eq_map :
    e.placeholderKeys m = (m.toList.filter fun x => e.hasPlaceholder x.1).map Prod.fst := by
  rw [placeholderKeys, OrderedMap.keys, List.filter_map]
  rfl

theorem expandKeys_outcome_eq_renameKeys
    (hlater : (e.placeholderKeys m).Pairwise fun key later =>
      (Placeholder.expand r key).outcome ≠ .ok later) :
    (e.expandKeys r m.toList).outcome =
      (renameKeys r (e.placeholderKeys m) m).outcome.map OrderedMap.toList := by
  have hd := m.nodup_keys
  rw [placeholderKeys_eq_map] at hlater ⊢
  have hkept : (m.toList.filter fun x =>
      x.1 ∉ (m.toList.filter fun x => e.hasPlaceholder x.1).map Prod.fst) =
      m.toList.filter fun x => !e.hasPlaceholder x.1 := by
    refine List.filter_congr fun x hx => ?_
    have hiff : x.1 ∈ (m.toList.filter fun x => e.hasPlaceholder x.1).map Prod.fst ↔
        e.hasPlaceholder x.1 = true := by
      constructor
      · intro hm
        obtain ⟨y, hy, hxy⟩ := List.mem_map.1 hm
        exact hxy ▸ (List.mem_filter.1 hy).2
      · intro hp
        exact List.mem_map_of_mem (List.mem_filter.2 ⟨hx, hp⟩)
    simp [hiff]
  have hes : ∀ x ∈ m.toList.filter fun x => e.hasPlaceholder x.1,
      m.toList.lookup x.1 = some x.2 :=
    fun x hx => EntryList.lookup_of_mem hd (List.mem_filter.1 hx).1
  have hnew : m.toList = EntryList.insertAll m.toList [] := rfl
  rw [expandKeys_outcome hd, renameKeys_outcome hnew hes (fun x _ => List.not_mem_nil)
    (nodup_filter hd _) hlater, hkept]
  rfl

/-! ## Keys and values afterwards -/

/-- The entries of a map in the order in which they are inserted: those that keep their keys first. -/
def insertionOrder (e : Engine) (m : OrderedMap Node) : List (String × Node) :=
  (m.toList.filter fun x => !e.hasPlaceholder x.1) ++ m.toList.filter fun x => e.hasPlaceholder x.1

theorem lookup_eq_find? {xs ys : List (String × Node)}
    (h : List.Forall₂ (fun x y => e.newKey? r x.1 = some y.1 ∧ y.2 = x.2) xs ys) (name : String) :
    ys.lookup name = (xs.find? fun x => e.newKey? r x.1 = some name).map Prod.snd := by
  induction h with
  | nil => rfl
  | @cons x y xs ys hxy _ ih =>
    rw [EntryList.lookup_cons, ih]
    by_cases hname : name = y.1
    · simp [hname, hxy.1, hxy.2]
    · have hne : e.newKey? r x.1 ≠ some name := by
        rw [hxy.1]
        exact fun heq => hname (Option.some.inj heq).symm
      simp [hname, hne]

/-- Of several entries that end up with one name, the last one supplies the value. -/
theorem lookup_expandKeys_eq_getLast? (hx : (e.expandKeys r m.toList).outcome = .ok expanded)
    (name : String) :
    expanded.lookup name =
      ((e.insertionOrder m).filter fun x => e.newKey? r x.1 = some name).getLast?.map Prod.snd := by
  obtain ⟨renamed, hr, rfl⟩ := (expandKeys_ok_iff m.nodup_keys).1 hx
  have hpairs : List.Forall₂ (fun x y => e.newKey? r x.1 = some y.1 ∧ y.2 = x.2)
      (e.insertionOrder m) ((m.toList.filter fun x => !e.hasPlaceholder x.1) ++ renamed) := by
    refine List.rel_append ?_ ?_
    · refine List.forall₂_same.2 fun x hm => ⟨?_, rfl⟩
      have hp := (List.mem_filter.1 hm).2
      exact newKey?_of_not_hasPlaceholder (by simpa using hp)
    · have hp : ∀ x ∈ m.toList.filter fun x => e.hasPlaceholder x.1,
          e.hasPlaceholder x.1 = true := fun x hm => (List.mem_filter.1 hm).2
      refine ((List.forall₂_and_left _ _).2 ⟨hp, hr⟩).imp fun x y hxy => ?_
      exact ⟨(newKey?_eq_some_iff hxy.1).2 hxy.2.1, hxy.2.2⟩
  have hkept : EntryList.insertAll [] (m.toList.filter fun x => !e.hasPlaceholder x.1) = _ :=
    EntryList.insertAll_of_nodup (nodup_filter m.nodup_keys fun x => !e.hasPlaceholder x.1)
  have hinsert : EntryList.insertAll (m.toList.filter fun x => !e.hasPlaceholder x.1) renamed =
      EntryList.insertAll [] ((m.toList.filter fun x => !e.hasPlaceholder x.1) ++ renamed) := by
    rw [EntryList.insertAll_append, hkept, List.nil_append]
  rw [hinsert, EntryList.lookup_insertAll, List.lookup_nil, Option.or_none,
    lookup_eq_find? (List.forall₂_reverse_iff.2 hpairs), List.getLast?_eq_head?_reverse,
    ← List.filter_reverse, List.head?_filter]

theorem exists_expandKeys_ok_iff :
    (∃ expanded, (e.expandKeys r m.toList).outcome = .ok expanded) ↔
      ∀ key ∈ e.placeholderKeys m, ∃ name, (Placeholder.expand r key).outcome = .ok name := by
  rw [expandKeys_outcome m.nodup_keys, Traced.exists_map_eq_ok_iff, Traced.exists_mapM_ok_iff,
    placeholderKeys_eq_map, List.forall_mem_map]
  simp only [renameEntry_outcome, Traced.exists_map_eq_ok_iff]

theorem expandKeys_error_iff {f : Failure} :
    (e.expandKeys r m.toList).outcome = .error f ↔
      ∃ key, (e.placeholderKeys m).find? (fun key => (Placeholder.expand r key).fails) = some key ∧
        (Placeholder.expand r key).outcome = .error f := by
  have hfails : ∀ x, (renameEntry r x).fails = (Placeholder.expand r x.1).fails := by
    intro x
    rw [Traced.fails, Traced.fails, renameEntry_outcome]
    cases (Placeholder.expand r x.1).outcome <;> rfl
  rw [expandKeys_outcome m.nodup_keys, Traced.map_eq_error_iff, Traced.mapM_outcome_eq_error_iff,
    placeholderKeys_eq_map, List.find?_map]
  simp only [hfails, renameEntry_outcome, Traced.map_eq_error_iff, Option.map_eq_some_iff,
    Function.comp_def]
  constructor
  · rintro ⟨x, hx, hf⟩
    exact ⟨x.1, ⟨x, hx, rfl⟩, hf⟩
  · rintro ⟨_, ⟨x, hx, rfl⟩, hf⟩
    exact ⟨x, hx, hf⟩

theorem keys_prefix_expandKeys (hx : (e.expandKeys r m.toList).outcome = .ok expanded) :
    (m.keys.filter fun key => !e.hasPlaceholder key) <+: expanded.map Prod.fst := by
  obtain ⟨renamed, -, rfl⟩ := (expandKeys_ok_iff m.nodup_keys).1 hx
  have hkeys : (m.keys.filter fun key => !e.hasPlaceholder key) =
      (m.toList.filter fun x => !e.hasPlaceholder x.1).map Prod.fst := by
    rw [OrderedMap.keys, List.filter_map]
    rfl
  rw [hkeys]
  exact EntryList.keys_prefix_insertAll _ _

/-- **Keys are expanded as if one after the other.** If no key is renamed to one that is still to be
renamed, the result is that of taking each key with placeholders out in turn and inserting its value
under its new name. The expansion succeeds if that of every key does, and fails like the first key
that fails. Keys without placeholders come first, in the order they had, and of several entries that
end up with one name the last one to be inserted supplies the value. -/
theorem expandKeys_renames_in_order (e : Engine) (r : Option Resolver) (m : OrderedMap Node)
    (hlater : (e.placeholderKeys m).Pairwise fun key later =>
      (Placeholder.expand r key).outcome ≠ .ok later) :
    (e.expandKeys r m.toList).outcome =
      (renameKeys r (e.placeholderKeys m) m).outcome.map OrderedMap.toList ∧
    ((∃ expanded, (e.expandKeys r m.toList).outcome = .ok expanded) ↔
      ∀ key ∈ e.placeholderKeys m, ∃ name, (Placeholder.expand r key).outcome = .ok name) ∧
    (∀ f, (e.expandKeys r m.toList).outcome = .error f ↔
      ∃ key, (e.placeholderKeys m).find? (fun key => (Placeholder.expand r key).fails) = some key ∧
        (Placeholder.expand r key).outcome = .error f) ∧
    ∀ expanded, (e.expandKeys r m.toList).outcome = .ok expanded →
      (m.keys.filter fun key => !e.hasPlaceholder key) <+: expanded.map Prod.fst ∧
      ∀ name, expanded.lookup name =
        ((e.insertionOrder m).filter fun x => e.newKey? r x.1 = some name).getLast?.map Prod.snd :=
  ⟨expandKeys_outcome_eq_renameKeys hlater, exists_expandKeys_ok_iff, fun _ => expandKeys_error_iff,
    fun _ hx => ⟨keys_prefix_expandKeys hx, lookup_expandKeys_eq_getLast? hx⟩⟩

/-- The first key takes the place of one that is there, and the last one goes to the end. -/
theorem expandKeys_renames_in_order_taken :
    (formulas.placeholderKeys (.ofList [("$A", .null), ("b", .list []), ("$C", .mapping [])])).Pairwise
      (fun key later => (Placeholder.expand
        (some fun name => [("A", "b"), ("C", "a")].lookup name) key).outcome ≠ .ok later) ∧
    (renameKeys (some fun name => [("A", "b"), ("C", "a")].lookup name)
      (formulas.placeholderKeys (.ofList [("$A", .null), ("b", .list []), ("$C", .mapping [])]))
      (.ofList [("$A", .null), ("b", .list []), ("$C", .mapping [])])).outcome.map
        OrderedMap.toList = .ok [("b", .null), ("a", .mapping [])] := by
  have hlist : (OrderedMap.ofList [("$A", Node.null), ("b", .list []), ("$C", .mapping [])]).toList =
      [("$A", .null), ("b", .list []), ("$C", .mapping [])] := by
    rw [OrderedMap.toList_ofList]
    rfl
  have hkeys : formulas.placeholderKeys
      (.ofList [("$A", .null), ("b", .list []), ("$C", .mapping [])]) = ["$A", "$C"] := by
    rw [placeholderKeys, OrderedMap.keys, hlist]
    cbv
  have hlater : (formulas.placeholderKeys
      (.ofList [("$A", .null), ("b", .list []), ("$C", .mapping [])])).Pairwise
      fun key later => (Placeholder.expand
        (some fun name => [("A", "b"), ("C", "a")].lookup name) key).outcome ≠ .ok later := by
    have hA : (Placeholder.expand
        (some fun name => [("A", "b"), ("C", "a")].lookup name) "$A").outcome = .ok "b" := by cbv
    rw [hkeys]
    simp [hA]
  refine ⟨hlater, ?_⟩
  rw [← (expandKeys_renames_in_order _ _ _ hlater).1, expandKeys_eq, hlist]
  cbv

end Engine

end GuardTree
