import GuardTree.Proofs.Reduction.Agreement
import GuardTree.Proofs.Reduction.Choice

/-! # How a reduction comes to a mapping

The keys of a mapping are expanded if the reduction comes to it as a `value`, and not if a guard has
`selected` it. `Chooses` is the first choice that is made in it, and `ComesTo` the way through a tree.
A choice among keys as they are written is also made among the expanded keys (`Chooses.of_selected`).
-/

namespace GuardTree

set_option autoImplicit false

/-- The entries in which some entries stand in a slot, these in a slot, and so on, the outermost slot
first. -/
def plug : List Slot → List (String × Node) → List (String × Node)
  | [], m => m
  | t :: c, m => t.fill (.mapping (plug c m))

theorem plug_append (c d : List Slot) (m : List (String × Node)) :
    plug (c ++ d) m = plug c (plug d m) := by
  induction c with
  | nil => rfl
  | cons t c ih => rw [List.cons_append, plug, ih, plug]

namespace Engine

variable {e : Engine} {policy : Policy} {r : Option Resolver} {entries found : List (String × Node)}
  {entry x y : String × Node}

/-! ## The keys that are seen -/

/-- How a reduction comes to a mapping. -/
inductive Arrival
  /-- It is the whole tree or a value of a plain mapping; its keys are expanded. -/
  | value
  /-- A guard has selected it; its keys are taken as they are written. -/
  | selected

/-- The entries of a mapping as a reduction sees them. -/
def seen (e : Engine) (r : Option Resolver) :
    Arrival → List (String × Node) → Traced (List (String × Node))
  | .value, entries => e.expandKeys r entries
  | .selected, entries => return entries

/-- The entry in the slot gives the value that is seen under `key`. -/
def Gives (e : Engine) (r : Option Resolver) : Arrival → Slot → String → Prop
  | .value, s, key => e.Supplies r s key
  | .selected, s, key => s.key = key

variable {a : Arrival} {s t : Slot} {v w : Node}

theorem nodup_seen (hd : (entries.map Prod.fst).Nodup)
    (hf : (e.seen r a entries).outcome = .ok found) : (found.map Prod.fst).Nodup := by
  cases a with
  | value => exact nodup_expandKeys hd hf
  | selected =>
    cases hf
    exact hd

theorem seen_agrees {R : Node → Node → Prop} {xs ys : List (String × Node)}
    (h : Entrywise R xs ys) : (e.seen r a xs).Agrees (Entrywise R) (e.seen r a ys) := by
  cases a with
  | value => exact expandKeys_agrees h
  | selected => exact .pure h

theorem Gives.of_sameKeys {key : String} (h : e.Gives r a s key) (hst : t.SameKeys s) :
    e.Gives r a t key := by
  cases a with
  | value => exact Supplies.of_sameKeys h hst
  | selected => exact hst.key.trans h

theorem exists_gives (hd : (entries.map Prod.fst).Nodup)
    (hf : (e.seen r a entries).outcome = .ok found) (hx : x ∈ found) :
    ∃ s : Slot, s.fill x.2 = entries ∧ e.Gives r a s x.1 := by
  cases a with
  | value => exact exists_supplies hd hf hx
  | selected =>
    cases hf
    obtain ⟨s, hs, hfill⟩ := Slot.exists_fill hx
    exact ⟨s, hfill, hs⟩

/-- The values that are seen stand in the mapping. -/
theorem exists_mem_of_seen (hd : (entries.map Prod.fst).Nodup)
    (hf : (e.seen r a entries).outcome = .ok found) (hx : x ∈ found) :
    ∃ key, (key, x.2) ∈ entries := by
  obtain ⟨t, rfl, -⟩ := exists_gives hd hf hx
  exact ⟨t.key, List.mem_append_right _ List.mem_cons_self⟩

theorem Gives.unique {key : String} (hs : e.Gives r a s key)
    (hd : ((s.fill v).map Prod.fst).Nodup) (hst : s.fill v = t.fill w) (ht : e.Gives r a t key) :
    s = t := by
  cases a with
  | value => exact Supplies.unique hd hst hs ht
  | selected =>
    have hkey : t.key = s.key := Eq.trans ht (Eq.symm hs)
    exact Slot.eq_of_key_eq hd hst hkey

theorem eq_of_gives (hd : ((s.fill v).map Prod.fst).Nodup)
    (hf : (e.seen r a (s.fill v)).outcome = .ok found) (hx : x ∈ found)
    (hs : e.Gives r a s x.1) : x.2 = v := by
  have hlookup : found.lookup x.1 = some v := by
    cases a with
    | value => exact lookup_expandKeys hd hs hf
    | selected =>
      cases hf
      refine EntryList.lookup_of_mem hd ?_
      rw [← show s.key = x.1 from hs]
      exact List.mem_append_right _ List.mem_cons_self
  rw [EntryList.lookup_of_mem (nodup_seen hd hf) hx] at hlookup
  exact Option.some.inj hlookup

/-- What is seen beside a slot is the same whatever stands in the slot. -/
theorem eq_of_not_gives (hd : ((t.fill v).map Prod.fst).Nodup) {found' : List (String × Node)}
    (hf : (e.seen r a (t.fill v)).outcome = .ok found)
    (hf' : (e.seen r a (t.fill w)).outcome = .ok found') (hx : x ∈ found) (hy : y ∈ found')
    (hk : x.1 = y.1) (ht : ¬ e.Gives r a t x.1) : x.2 = y.2 := by
  obtain ⟨u, hu, hs⟩ := exists_gives hd hf hx
  have hne : t ≠ u := by
    rintro rfl
    exact ht hs
  obtain ⟨u', hu', hfill⟩ := Slot.exists_sameKeys_of_ne hu.symm hne w
  have hd' : ((u'.fill x.2).map Prod.fst).Nodup := by
    rw [hu'.fill x.2 x.2, hu]
    exact hd
  rw [hfill] at hf'
  exact (eq_of_gives hd' hf' hy (hk ▸ hs.of_sameKeys hu')).symm

/-! ## The first choice -/

/-- The mapping is guarded as it is seen, and `entry` wins. -/
def Chooses (e : Engine) (policy : Policy) (r : Option Resolver) (a : Arrival)
    (entries : List (String × Node)) (entry : String × Node) : Prop :=
  ∃ found, (e.seen r a entries).outcome = .ok found ∧ (e.isGuarded found).outcome = .ok true ∧
    (e.select policy found).outcome = .ok entry

theorem Chooses.unique (hx : e.Chooses policy r a entries x) (hy : e.Chooses policy r a entries y) :
    x = y := by
  obtain ⟨found, hf, -, hselect⟩ := hx
  obtain ⟨found', hf', -, hselect'⟩ := hy
  obtain rfl := Except.ok.inj (hf.symm.trans hf')
  exact Except.ok.inj (hselect.symm.trans hselect')

theorem Chooses.exists_gives (hc : e.Chooses policy r a entries entry)
    (hd : (entries.map Prod.fst).Nodup) :
    ∃ s : Slot, s.fill entry.2 = entries ∧ e.Gives r a s entry.1 := by
  obtain ⟨found, hf, -, hselect⟩ := hc
  exact Engine.exists_gives hd hf (select_mem hselect)

theorem Chooses.eq_of_gives (hc : e.Chooses policy r a (s.fill v) entry)
    (hd : ((s.fill v).map Prod.fst).Nodup) (hs : e.Gives r a s entry.1) : entry.2 = v := by
  obtain ⟨found, hf, -, hselect⟩ := hc
  exact Engine.eq_of_gives hd hf (select_mem hselect) hs

/-- The choice among the guards as they stand is also the one among the expanded guards. -/
theorem Chooses.of_selected (hc : e.Chooses policy r .selected entries entry)
    (hd : (entries.map Prod.fst).Nodup) : e.Chooses policy r .value entries entry := by
  obtain ⟨_, hf, hg, hs⟩ := hc
  cases hf
  obtain ⟨hdecided, hpick, -⟩ := select_ok_iff.1 hs
  obtain ⟨hne, hguard⟩ := isGuarded_ok_true_iff.1 hg
  have hperm := List.filter_append_perm (fun x => !e.hasPlaceholder x.1) entries
  simp only [Bool.not_not] at hperm
  have hkeys := hperm.map Prod.fst
  have hfilter : ∀ p : String → Bool, (entries.filter fun x => p x.1).map Prod.fst =
      (entries.map Prod.fst).filter p := fun p => List.filter_map.symm
  refine ⟨_, expandKeys_of_decided hd hdecided, ?_, ?_⟩
  · refine isGuarded_ok_true_iff.2 ⟨fun hnil => hne ?_, fun x hx => hguard x (hperm.mem_iff.1 hx)⟩
    rw [hnil] at hperm
    exact hperm.nil_eq.symm
  · refine select_ok_iff.2 ⟨fun key hk => hdecided key (hkeys.mem_iff.1 hk), ?_, ?_⟩
    · rw [← hpick]
      refine congrArg policy.pick (preferred_congr (hkeys.filter _) ?_)
      rw [List.filter_comm, List.map_append, hfilter fun key => !e.hasPlaceholder key, hfilter,
        filter_ne_otherwiseKey_of_decided hdecided, List.filter_comm]
    · exact EntryList.lookup_of_mem (hkeys.nodup_iff.2 hd) (hperm.mem_iff.2 (select_mem hs))

/-! ## Keys that stand once -/

theorem nodup_of_distinctKeys {m : List (String × Node)} (h : (Node.mapping m).DistinctKeys) :
    (m.map Prod.fst).Nodup := by
  cases h with
  | mapping hd _ => exact hd

theorem distinctKeys_of_fill {m : List (String × Node)}
    (h : (Node.mapping (t.fill (.mapping m))).DistinctKeys) : (Node.mapping m).DistinctKeys := by
  cases h with
  | mapping _ hvalues =>
    exact hvalues (t.key, .mapping m) (List.mem_append_right _ List.mem_cons_self)

theorem distinctKeys_of_plug {c : List Slot} {m : List (String × Node)}
    (h : (Node.mapping (plug c m)).DistinctKeys) : (Node.mapping m).DistinctKeys := by
  induction c with
  | nil => exact h
  | cons t c ih => exact ih (distinctKeys_of_fill h)

/-! ## The way to a mapping -/

/-- `e.ComesTo policy r a c m path b`: the reduction of `plug c m`, from the arrival `a` on, comes to
`m` with the arrival `b`, and works out there what stands at `path` in its result. It goes on with
what a guard selects, which takes the place of the mapping, and with a value of a plain mapping, once
all values have been expanded and those before it reduced. -/
inductive ComesTo (e : Engine) (policy : Policy) (r : Option Resolver) :
    Arrival → List Slot → List (String × Node) → List String → Arrival → Prop
  | here (a : Arrival) (m : List (String × Node)) : ComesTo e policy r a [] m [] a
  | value {a b : Arrival} {t : Slot} {c : List Slot} {path : List String} {key : String}
      {m found before after results : List (String × Node)}
      (hf : (e.seen r a (t.fill (.mapping (plug c m)))).outcome = .ok found)
      (hg : (e.isGuarded found).outcome = .ok false)
      (hv : (expandValues r found).outcome = .ok (before ++ (key, .mapping (plug c m)) :: after))
      (hb : (e.reduceEntries policy r before).outcome = .ok results)
      (ht : e.Gives r a t key) (h : ComesTo e policy r .value c m path b) :
      ComesTo e policy r a (t :: c) m (key :: path) b
  | selected {a b : Arrival} {t : Slot} {c : List Slot} {path : List String}
      {m : List (String × Node)} {x : String × Node}
      (hc : e.Chooses policy r a (t.fill (.mapping (plug c m))) x) (ht : e.Gives r a t x.1)
      (h : ComesTo e policy r .selected c m path b) : ComesTo e policy r a (t :: c) m path b

theorem ComesTo.trans {b a' : Arrival} {c d : List Slot} {m m' : List (String × Node)}
    {path path' : List String} (h : e.ComesTo policy r a c m' path b) (hm : m' = plug d m)
    (h' : e.ComesTo policy r b d m path' a') :
    e.ComesTo policy r a (c ++ d) m (path ++ path') a' := by
  induction h with
  | here => exact h'
  | value hf hg hv hb ht _ ih =>
    subst hm
    rw [← plug_append] at hf hv
    exact .value hf hg hv hb ht (ih rfl h')
  | selected hc ht _ ih =>
    subst hm
    rw [← plug_append] at hc
    exact .selected hc ht (ih rfl h')

/-- The reduction leaves `m` a mapping: it sees `plain`, which no guard decides on. -/
structure Stays (e : Engine) (r : Option Resolver) (a : Arrival)
    (m plain : List (String × Node)) : Prop where
  seen : (e.seen r a m).outcome = .ok plain
  plain : (e.isGuarded plain).outcome = .ok false

/-- Where there is a choice to be made, the mapping is not plain. -/
theorem Chooses.not_plain {m : List (String × Node)} (hc : e.Chooses policy r a entries x)
    (hm : m = entries) (hf : (e.seen r a m).outcome = .ok found) :
    (e.isGuarded found).outcome ≠ .ok false := by
  obtain ⟨found', hf', hg, -⟩ := hc
  subst hm
  obtain rfl := Except.ok.inj (hf.symm.trans hf')
  rw [hg]
  intro h
  cases h

/-- Of the mappings that the reduction comes to for one place in its result, just one stays. -/
theorem ComesTo.stays_unique {b b' : Arrival} {c c' : List Slot} {path : List String}
    {m m' plain plain' : List (String × Node)} (h : e.ComesTo policy r a c m path b)
    (h' : e.ComesTo policy r a c' m' path b') (hd : (Node.mapping (plug c m)).DistinctKeys)
    (heq : plug c m = plug c' m') (hs : e.Stays r b m plain) (hs' : e.Stays r b' m' plain') :
    b' = b ∧ plain' = plain := by
  induction h generalizing c' with
  | here a m =>
    cases h' with
    | here =>
      obtain rfl : m = m' := heq
      exact ⟨rfl, Except.ok.inj (hs'.seen.symm.trans hs.seen)⟩
    | selected hc => exact absurd hs.plain (hc.not_plain heq hs.seen)
  | value hf hg _ _ ht _ ih =>
    cases h' with
    | value _ _ _ _ ht' h' =>
      obtain rfl := ht.unique (nodup_of_distinctKeys hd) heq ht'
      exact ih h' (distinctKeys_of_fill hd) (Node.mapping.inj (Slot.fill_inj heq)) hs
    | selected hc => exact absurd hg (hc.not_plain heq hf)
  | selected hc ht _ ih =>
    cases h' with
    | here => exact absurd hs'.plain (hc.not_plain heq.symm hs'.seen)
    | value hf' hg' => exact absurd hg' (hc.not_plain heq.symm hf')
    | selected hc' ht' h' =>
      rw [plug, plug] at heq
      rw [← heq] at hc'
      obtain rfl := hc.unique hc'
      obtain rfl := ht.unique (nodup_of_distinctKeys hd) heq ht'
      exact ih h' (distinctKeys_of_fill hd) (Node.mapping.inj (Slot.fill_inj heq)) hs

end Engine

end GuardTree
