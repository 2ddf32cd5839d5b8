import GuardTree.Proofs.Reduction.Steps
import GuardTree.Proofs.Tree.EntryLookup

/-! # Where the values stand after the keys have been expanded

Several keys of a mapping may become one. Its value is then that of the entry inserted last, which
is the one that `Supplies` it: `lookup_expandKeys` for its value, `exists_supplies` and
`Supplies.unique` for there being just one.
-/

namespace GuardTree

set_option autoImplicit false

/-! ## Slots -/

/-- The place of a value in a mapping: the entries before it, its key, and the entries after it. -/
structure Slot where
  before : List (String × Node)
  key : String
  after : List (String × Node)

namespace Slot

/-- The entries with a value in the slot. -/
def fill (s : Slot) (v : Node) : List (String × Node) := s.before ++ (s.key, v) :: s.after

/-- Slots at the same place among the same keys; the other values may differ. -/
structure SameKeys (s t : Slot) : Prop where
  before : s.before.map Prod.fst = t.before.map Prod.fst
  key : s.key = t.key
  after : s.after.map Prod.fst = t.after.map Prod.fst

theorem SameKeys.fill {s t : Slot} (h : s.SameKeys t) (v w : Node) :
    (s.fill v).map Prod.fst = (t.fill w).map Prod.fst := by
  simp [Slot.fill, h.before, h.key, h.after]

theorem exists_fill {entries : List (String × Node)} {entry : String × Node} (h : entry ∈ entries) :
    ∃ s : Slot, s.key = entry.1 ∧ s.fill entry.2 = entries := by
  obtain ⟨xs, ys, rfl⟩ := List.append_of_mem h
  exact ⟨⟨xs, entry.1, ys⟩, rfl, rfl⟩

/-- Two slots of one mapping are the same, or one stands before the other. -/
theorem fill_eq_cases {s t : Slot} {v w : Node} (h : s.fill v = t.fill w) :
    s = t ∨
      (∃ mid, t.before = s.before ++ (s.key, v) :: mid ∧ s.after = mid ++ (t.key, w) :: t.after) ∨
      ∃ mid, s.before = t.before ++ (t.key, w) :: mid ∧ t.after = mid ++ (s.key, v) :: s.after := by
  obtain ⟨xs, j, ys⟩ := s
  obtain ⟨zs, k, ws⟩ := t
  dsimp only [fill] at h ⊢
  obtain ⟨mid, hz, h⟩ | ⟨mid, hx, h⟩ := List.append_eq_append_iff.1 h
  · cases mid with
    | nil => simp_all
    | cons m mid =>
      rw [List.cons_append] at h
      obtain ⟨rfl, rfl⟩ := List.cons.inj h
      exact .inr (.inl ⟨mid, hz, rfl⟩)
  · cases mid with
    | nil => simp_all
    | cons m mid =>
      rw [List.cons_append] at h
      obtain ⟨rfl, rfl⟩ := List.cons.inj h
      exact .inr (.inr ⟨mid, hx, rfl⟩)

theorem fill_inj {s : Slot} {v w : Node} (h : s.fill v = s.fill w) : v = w := by
  simpa [fill] using h

theorem key_not_mem {s : Slot} {v : Node} (hd : ((s.fill v).map Prod.fst).Nodup) :
    s.key ∉ s.before.map Prod.fst ++ s.after.map Prod.fst := by
  rw [fill, List.map_append, List.map_cons, List.perm_middle.nodup_iff] at hd
  exact (List.nodup_cons.1 hd).1

/-- If no key stands twice, a slot is found by its key. -/
theorem eq_of_key_eq {s t : Slot} {v w : Node} (hd : ((s.fill v).map Prod.fst).Nodup)
    (h : s.fill v = t.fill w) (hk : t.key = s.key) : s = t := by
  have hnot := key_not_mem hd
  obtain h | ⟨mid, -, hafter⟩ | ⟨mid, hbefore, -⟩ := fill_eq_cases h
  · exact h
  · exact absurd (by simp [hafter, hk]) hnot
  · exact absurd (by simp [hbefore, hk]) hnot

/-- A slot next to another one stays where it is when the other's value is changed. -/
theorem exists_sameKeys_of_ne {s t : Slot} {v w : Node} (h : s.fill v = t.fill w) (hne : s ≠ t)
    (v' : Node) : ∃ t' : Slot, t'.SameKeys t ∧ s.fill v' = t'.fill w := by
  obtain rfl | ⟨mid, hbefore, hafter⟩ | ⟨mid, hbefore, hafter⟩ := fill_eq_cases h
  · exact absurd rfl hne
  · refine ⟨⟨s.before ++ (s.key, v') :: mid, t.key, t.after⟩, ⟨?_, rfl, rfl⟩, ?_⟩
    · simp [hbefore]
    · simp [fill, hafter]
  · refine ⟨⟨t.before, t.key, mid ++ (s.key, v') :: s.after⟩, ⟨rfl, rfl, ?_⟩, ?_⟩
    · simp [hafter]
    · simp [fill, hbefore]

end Slot

namespace Engine

variable {e : Engine} {r : Option Resolver} {entries expanded : List (String × Node)}

/-! ## The renamed entries -/

/-- What a key is called after expansion, if its placeholders have values. -/
def newKey? (e : Engine) (r : Option Resolver) (key : String) : Option String :=
  if e.hasPlaceholder key then
    match (Placeholder.expand r key).outcome with
    | .ok key' => some key'
    | .error _ => none
  else some key

theorem newKey?_of_not_hasPlaceholder {key : String} (h : e.hasPlaceholder key = false) :
    e.newKey? r key = some key := by
  simp [newKey?, h]

theorem newKey?_eq_some_iff {key key' : String} (h : e.hasPlaceholder key = true) :
    e.newKey? r key = some key' ↔ (Placeholder.expand r key).outcome = .ok key' := by
  rw [newKey?, if_pos h]
  cases (Placeholder.expand r key).outcome <;> simp

/-- `y` is `x` with its key expanded. -/
def Renames (r : Option Resolver) (x y : String × Node) : Prop :=
  (Placeholder.expand r x.1).outcome = .ok y.1 ∧ y.2 = x.2

theorem renameEntry_outcome (entry : String × Node) :
    (renameEntry r entry).outcome =
      (Placeholder.expand r entry.1).outcome.map fun key => (key, entry.2) := by
  obtain ⟨key, hk⟩ | ⟨f, hf⟩ := (Placeholder.expand r entry.1).ok_or_error
  · rw [renameEntry, Traced.bind_ok hk, hk]
    rfl
  · rw [renameEntry, Traced.bind_error hf, hf]
    rfl

theorem renameEntry_ok_iff {x y : String × Node} :
    (renameEntry r x).outcome = .ok y ↔ Renames r x y := by
  rw [renameEntry_outcome, Traced.map_eq_ok_iff, Renames]
  constructor
  · rintro ⟨key, hk, rfl⟩
    exact ⟨hk, rfl⟩
  · rintro ⟨hk, hv⟩
    exact ⟨y.1, hk, Prod.ext rfl hv⟩

theorem mapM_renameEntry_ok_iff {xs ys : List (String × Node)} :
    (xs.mapM (renameEntry r)).outcome = .ok ys ↔ List.Forall₂ (Renames r) xs ys := by
  constructor
  · intro h
    exact (Traced.forall₂_of_mapM h).imp fun _ _ => renameEntry_ok_iff.1
  · intro h
    induction h with
    | nil => rfl
    | cons hxy _ ih =>
      rw [List.mapM_cons, Traced.bind_outcome_eq_ok]
      refine ⟨_, renameEntry_ok_iff.2 hxy, Traced.bind_outcome_eq_ok.2 ⟨_, ih, rfl⟩⟩

theorem nodup_filter (hd : (entries.map Prod.fst).Nodup) (p : String × Node → Bool) :
    ((entries.filter p).map Prod.fst).Nodup :=
  hd.sublist ((List.filter_sublist).map Prod.fst)

/-- If no key stands twice, the renamed entries are inserted into the others as these are. -/
theorem expandKeys_outcome (hd : (entries.map Prod.fst).Nodup) :
    (e.expandKeys r entries).outcome =
      ((entries.filter fun x => e.hasPlaceholder x.1).mapM (renameEntry r)).outcome.map
        (EntryList.insertAll (entries.filter fun x => !e.hasPlaceholder x.1)) := by
  rw [expandKeys_eq]
  split
  case isTrue =>
    have hkept : EntryList.insertAll [] (entries.filter fun x => !e.hasPlaceholder x.1) = _ :=
      EntryList.insertAll_of_nodup (nodup_filter hd fun x => !e.hasPlaceholder x.1)
    rw [Traced.outcome_bind_pure, hkept, List.nil_append]
  case isFalse h =>
    have hnone : ∀ x ∈ entries, e.hasPlaceholder x.1 = false := by simpa using h
    have hrenamed : (entries.filter fun x => e.hasPlaceholder x.1) = [] := by simpa using hnone
    have hkept : (entries.filter fun x => !e.hasPlaceholder x.1) = entries := by simpa using hnone
    rw [hrenamed, hkept]
    rfl

theorem expandKeys_ok_iff (hd : (entries.map Prod.fst).Nodup) :
    (e.expandKeys r entries).outcome = .ok expanded ↔
      ∃ renamed, List.Forall₂ (Renames r) (entries.filter fun x => e.hasPlaceholder x.1) renamed ∧
        expanded = EntryList.insertAll (entries.filter fun x => !e.hasPlaceholder x.1) renamed := by
  simp only [expandKeys_outcome hd, Traced.map_eq_ok_iff, mapM_renameEntry_ok_iff]

theorem nodup_expandKeys (hd : (entries.map Prod.fst).Nodup)
    (hx : (e.expandKeys r entries).outcome = .ok expanded) : (expanded.map Prod.fst).Nodup := by
  unfold expandKeys at hx
  split at hx
  · obtain ⟨renamed, _, hx⟩ := Traced.bind_outcome_eq_ok.1 hx
    cases hx
    exact OrderedMap.nodup_keys _
  · cases hx
    exact hd

theorem mem_expandKeys (hd : (entries.map Prod.fst).Nodup)
    (hx : (e.expandKeys r entries).outcome = .ok expanded) {x : String × Node} (h : x ∈ expanded) :
    ∃ y ∈ entries, x.2 = y.2 ∧ e.newKey? r y.1 = some x.1 := by
  obtain ⟨renamed, hr, rfl⟩ := (expandKeys_ok_iff hd).1 hx
  obtain h | h := EntryList.mem_insertAll h
  · obtain ⟨hm, hp⟩ := List.mem_filter.1 h
    exact ⟨x, hm, rfl, newKey?_of_not_hasPlaceholder (by simpa using hp)⟩
  · obtain ⟨y, hy, hkey, hvalue⟩ := Traced.exists_mem_of_forall₂ hr h
    obtain ⟨hm, hp⟩ := List.mem_filter.1 hy
    exact ⟨y, hm, hvalue, (newKey?_eq_some_iff hp).2 hkey⟩

/-! ## The entry that supplies a value -/

/-- `e.Supplies r s key`: the entry in the slot is the last one to be inserted as `key`. Entries
with placeholders are inserted after those without, each in order. -/
structure Supplies (e : Engine) (r : Option Resolver) (s : Slot) (key : String) : Prop where
  becomes : e.newKey? r s.key = some key
  /-- What is inserted after it is not called `key`. -/
  last : ∀ k ∈ if e.hasPlaceholder s.key then s.after.map Prod.fst
      else s.before.map Prod.fst ++ s.after.map Prod.fst,
    e.hasPlaceholder k = true → e.newKey? r k ≠ some key

variable {s t : Slot} {key : String} {v w : Node}

theorem Supplies.of_sameKeys (h : e.Supplies r s key) (hst : t.SameKeys s) :
    e.Supplies r t key := by
  refine ⟨hst.key ▸ h.becomes, ?_⟩
  rw [hst.key, hst.before, hst.after]
  exact h.last

theorem Supplies.last_of_mem_after (h : e.Supplies r s key) {k : String}
    (hk : k ∈ s.after.map Prod.fst) (hp : e.hasPlaceholder k = true) :
    e.newKey? r k ≠ some key := by
  refine h.last k ?_ hp
  split
  · exact hk
  · exact List.mem_append_right _ hk

theorem Supplies.last_of_mem_before (h : e.Supplies r s key) (hs : e.hasPlaceholder s.key = false)
    {k : String} (hk : k ∈ s.before.map Prod.fst) (hp : e.hasPlaceholder k = true) :
    e.newKey? r k ≠ some key := by
  refine h.last k ?_ hp
  rw [if_neg (by simp [hs])]
  exact List.mem_append_left _ hk

theorem lookup_eq_none_of_renames {xs ys : List (String × Node)}
    (h : List.Forall₂ (Renames r) (xs.filter fun x => e.hasPlaceholder x.1) ys)
    (hlast : ∀ k ∈ xs.map Prod.fst, e.hasPlaceholder k = true → e.newKey? r k ≠ some key) :
    ys.reverse.lookup key = none := by
  rw [EntryList.lookup_eq_none_iff_not_mem, List.map_reverse, List.mem_reverse]
  intro hm
  generalize hzs : (xs.filter fun x => e.hasPlaceholder x.1) = zs at h
  have hzs' : ∀ z ∈ zs, z ∈ xs ∧ e.hasPlaceholder z.1 = true := by
    intro z hz
    rw [← hzs] at hz
    exact List.mem_filter.1 hz
  clear hzs
  induction h with
  | nil => cases hm
  | @cons z y zs ys hzy _ ih =>
    obtain ⟨hmem, hp⟩ := hzs' z List.mem_cons_self
    rw [List.map_cons, List.mem_cons] at hm
    obtain rfl | hm := hm
    · exact hlast z.1 (List.mem_map_of_mem hmem) hp ((newKey?_eq_some_iff hp).2 hzy.1)
    · exact ih hm fun z hz => hzs' z (List.mem_cons_of_mem _ hz)

theorem exists_append_of_renames {xs ys renamed : List (String × Node)}
    (h : List.Forall₂ (Renames r) (xs ++ ys) renamed) :
    ∃ xs' ys', renamed = xs' ++ ys' ∧ List.Forall₂ (Renames r) ys ys' := by
  have hdrop := List.forall₂_drop_append _ _ _ h.flip
  exact ⟨_, _, (List.take_append_drop xs.length renamed).symm, hdrop.flip⟩

/-- The value of a key after expansion is the one that was supplied for it. -/
theorem lookup_expandKeys (hd : ((s.fill v).map Prod.fst).Nodup) (h : e.Supplies r s key)
    (hx : (e.expandKeys r (s.fill v)).outcome = .ok expanded) : expanded.lookup key = some v := by
  obtain ⟨renamed, hr, rfl⟩ := (expandKeys_ok_iff hd).1 hx
  rw [EntryList.lookup_insertAll]
  cases hs : e.hasPlaceholder s.key with
  | true =>
    -- It is renamed: what is renamed after it is called otherwise.
    rw [Slot.fill, List.filter_append, List.filter_cons, if_pos hs] at hr
    obtain ⟨ys, zs, rfl, htail⟩ := exists_append_of_renames hr
    obtain ⟨y, zs, hy, hrest, rfl⟩ := List.forall₂_cons_left_iff.1 htail
    have hkey : y.1 = key := by
      have hbecomes := (newKey?_eq_some_iff hs).1 h.becomes
      exact Except.ok.inj (hy.1.symm.trans hbecomes)
    have hafter := lookup_eq_none_of_renames hrest fun _ => h.last_of_mem_after
    simp only [List.reverse_append, List.reverse_cons, List.lookup_append, hafter, Option.none_or,
      EntryList.lookup_cons, hkey, if_true, hy.2, Option.some_or]
  | false =>
    -- It keeps its key: no renamed entry takes it.
    obtain rfl : s.key = key := by
      have hbecomes := h.becomes
      rw [newKey?_of_not_hasPlaceholder hs] at hbecomes
      exact Option.some.inj hbecomes
    have hrenamed : renamed.reverse.lookup s.key = none := by
      refine lookup_eq_none_of_renames hr fun k hk hp => ?_
      rw [Slot.fill, List.map_append, List.map_cons, List.mem_append, List.mem_cons] at hk
      obtain hk | rfl | hk := hk
      · exact h.last_of_mem_before hs hk hp
      · rw [hs] at hp
        cases hp
      · exact h.last_of_mem_after hk hp
    rw [hrenamed, Option.none_or]
    refine EntryList.lookup_of_mem (nodup_filter hd _) (List.mem_filter.2 ⟨?_, by simp [hs]⟩)
    exact List.mem_append_right _ List.mem_cons_self

theorem exists_last_split {α : Type} {p : α → Prop} {xs : List α} (h : ∃ x ∈ xs, p x) :
    ∃ ys x zs, xs = ys ++ x :: zs ∧ p x ∧ ∀ z ∈ zs, ¬ p z := by
  induction xs with
  | nil =>
    obtain ⟨x, hx, -⟩ := h
    cases hx
  | cons x xs ih =>
    by_cases hxs : ∃ y ∈ xs, p y
    · obtain ⟨ys, y, zs, rfl, hy, hzs⟩ := ih hxs
      exact ⟨x :: ys, y, zs, rfl, hy, hzs⟩
    · obtain ⟨y, hy, hp⟩ := h
      obtain rfl | hy := List.mem_cons.1 hy
      · exact ⟨[], y, xs, rfl, hp, fun z hz hpz => hxs ⟨z, hz, hpz⟩⟩
      · exact absurd ⟨y, hy, hp⟩ hxs

/-- Every key there is after expansion is supplied by an entry. -/
theorem exists_supplies (hd : (entries.map Prod.fst).Nodup)
    (hx : (e.expandKeys r entries).outcome = .ok expanded) {x : String × Node} (h : x ∈ expanded) :
    ∃ s : Slot, s.fill x.2 = entries ∧ e.Supplies r s x.1 := by
  suffices hs : ∃ (s : Slot) (v : Node), s.fill v = entries ∧ e.Supplies r s x.1 by
    obtain ⟨s, v, rfl, hs⟩ := hs
    have hv := lookup_expandKeys hd hs hx
    rw [EntryList.lookup_of_mem (nodup_expandKeys hd hx) h] at hv
    exact ⟨s, by rw [Option.some.inj hv], hs⟩
  by_cases hrenamed : ∃ y ∈ entries, e.hasPlaceholder y.1 = true ∧ e.newKey? r y.1 = some x.1
  · obtain ⟨ys, y, zs, rfl, ⟨hp, hy⟩, hzs⟩ := exists_last_split hrenamed
    refine ⟨⟨ys, y.1, zs⟩, y.2, rfl, hy, ?_⟩
    rw [if_pos hp]
    intro k hk hpk hnew
    obtain ⟨z, hz, rfl⟩ := List.mem_map.1 hk
    exact hzs z hz ⟨hpk, hnew⟩
  · obtain ⟨y, hy, -, hnew⟩ := mem_expandKeys hd hx h
    obtain ⟨s, hs, rfl⟩ := Slot.exists_fill hy
    refine ⟨s, y.2, rfl, hs ▸ hnew, fun k hk hpk hnewk => hrenamed ?_⟩
    have hmem : k ∈ (s.fill y.2).map Prod.fst := by
      rw [Slot.fill, List.map_append, List.map_cons, List.mem_append, List.mem_cons]
      split at hk
      · exact .inr (.inr hk)
      · exact (List.mem_append.1 hk).imp_right .inr
    obtain ⟨z, hz, rfl⟩ := List.mem_map.1 hmem
    exact ⟨z, hz, hpk, hnewk⟩

/-- No second entry supplies the same key. -/
theorem Supplies.unique (hd : ((s.fill v).map Prod.fst).Nodup) (hst : s.fill v = t.fill w)
    (hs : e.Supplies r s key) (ht : e.Supplies r t key) : s = t := by
  -- Of two entries, the one that stands first has a placeholder and the other one has none.
  have hbeside : ∀ {s t : Slot} {v w : Node}, s.fill v = t.fill w → e.Supplies r s key →
      e.Supplies r t key → t.key ∈ s.after.map Prod.fst → s.key ∈ t.before.map Prod.fst →
      s.key = t.key := by
    intro s t v w hst hs ht hafter hbefore
    have htp : e.hasPlaceholder t.key = false := by
      by_contra hp
      exact hs.last_of_mem_after hafter (by simpa using hp) ht.becomes
    have hsp : e.hasPlaceholder s.key = false := by
      by_contra hp
      exact ht.last_of_mem_before htp hbefore (by simpa using hp) hs.becomes
    have hkey := hs.becomes.trans ht.becomes.symm
    rw [newKey?_of_not_hasPlaceholder hsp, newKey?_of_not_hasPlaceholder htp] at hkey
    exact Option.some.inj hkey
  obtain h | ⟨mid, hbefore, hafter⟩ | ⟨mid, hbefore, hafter⟩ := Slot.fill_eq_cases hst
  · exact h
  · have hkey := hbeside hst hs ht (by simp [hafter]) (by simp [hbefore])
    exact Slot.eq_of_key_eq hd hst hkey.symm
  · have hkey := hbeside hst.symm ht hs (by simp [hafter]) (by simp [hbefore])
    exact Slot.eq_of_key_eq hd hst hkey

end Engine

end GuardTree
