import Std.Data.HashMap

/-! # Maps that keep the order of their entries

An `OrderedMap` holds its entries in an array, in the order in which their keys were first inserted,
and an index from each key to its place. The two are tied together by `Indexes`: the index is
exactly the inverse of the entries, so keys are distinct and no index entry is stale.

* `insert`: overwrites in place, or appends; gives back the value that was there.
* `erase`: removes an entry and closes the gap; gives back its value.
* `ofList`: inserts the pairs of a list in turn, so a key stands where it first occurs and has the
  value it last occurs with.
-/

namespace GuardTree

set_option autoImplicit false

/-- An index that gives for each key the place of the entry with that key, and nothing else. -/
def Indexes {α : Type} (index : Std.HashMap String Nat) (entries : Array (String × α)) : Prop :=
  ∀ (key : String) (i : Nat), index[key]? = some i ↔ entries[i]?.map Prod.fst = some key

namespace Indexes

variable {α : Type} {index : Std.HashMap String Nat} {entries : Array (String × α)}

theorem empty : Indexes (∅ : Std.HashMap String Nat) (#[] : Array (String × α)) := by
  intro key i
  simp

theorem lt_size (h : Indexes index entries) {key : String} {i : Nat} (hi : index[key]? = some i) :
    i < entries.size := by
  have hk := (h key i).1 hi
  apply Classical.byContradiction
  intro hn
  simp [Array.getElem?_eq_none (Nat.le_of_not_lt hn)] at hk

theorem place_unique (h : Indexes index entries) {key : String} {i j : Nat}
    (hi : entries[i]?.map Prod.fst = some key) (hj : entries[j]?.map Prod.fst = some key) :
    i = j := by
  have h₁ := (h key i).2 hi
  rw [(h key j).2 hj] at h₁
  exact (Option.some.inj h₁).symm

theorem overwrite (h : Indexes index entries) {key : String} {i : Nat}
    (hi : index[key]? = some i) (value : α) :
    Indexes index (entries.setIfInBounds i (key, value)) := by
  intro k j
  rw [h, Array.getElem?_setIfInBounds]
  by_cases hij : i = j
  · subst hij
    rw [(h key i).1 hi]
    simp [h.lt_size hi]
  · simp [hij]

theorem push (h : Indexes index entries) {key : String} (hk : index[key]? = none) (value : α) :
    Indexes (index.insert key entries.size) (entries.push (key, value)) := by
  intro k j
  have hn : ¬ entries[j]?.map Prod.fst = some key := by
    rw [← h key j, hk]
    simp
  rw [Std.HashMap.getElem?_insert, Array.getElem?_push]
  by_cases hj : j = entries.size
  · subst hj
    by_cases hkk : key = k
    · simp [hkk]
    · have := h k entries.size
      simp only [Array.getElem?_eq_none (Nat.le_refl _), Option.map_none,
        reduceCtorEq, iff_false] at this
      simp [hkk, this]
  · by_cases hkk : key = k
    · subst hkk
      simp only [beq_self_eq_true, if_true, Option.some.injEq, hj, if_false]
      exact ⟨fun e => absurd e.symm hj, fun e => absurd e hn⟩
    · simp [hkk, hj, h k j]

/-- Points the keys of some entries, the first of which stands at place `i`, at the places they
stand at; a key that the index does not have stays out of it. -/
def repoint (index : Std.HashMap String Nat) : List (String × α) → Nat → Std.HashMap String Nat
  | [], _ => index
  | entry :: entries, i => repoint (index.modify entry.1 fun _ => i) entries (i + 1)

theorem repoint_of_not_mem {key : String} (es : List (String × α)) (i : Nat)
    (hk : key ∉ es.map Prod.fst) : (repoint index es i)[key]? = index[key]? := by
  induction es generalizing index i with
  | nil => rfl
  | cons entry es ih =>
    simp only [List.map_cons, List.mem_cons, not_or] at hk
    rw [repoint, ih _ hk.2, Std.HashMap.getElem?_modify]
    simp [Ne.symm hk.1]

theorem repoint_of_getElem? {key : String} {es : List (String × α)} {j : Nat} (i : Nat)
    (hd : (es.map Prod.fst).Nodup) (hj : es[j]?.map Prod.fst = some key) :
    (repoint index es i)[key]? = index[key]?.map fun _ => i + j := by
  induction es generalizing index i j with
  | nil => simp at hj
  | cons entry es ih =>
    obtain ⟨hn, hd⟩ := List.nodup_cons.1 hd
    cases j with
    | zero =>
      obtain rfl : entry.1 = key := by simpa using hj
      rw [repoint, repoint_of_not_mem _ _ hn]
      simp
    | succ j =>
      have hj' : es[j]?.map Prod.fst = some key := by simpa using hj
      have hne : entry.1 ≠ key := by
        rintro rfl
        obtain ⟨e, he, hek⟩ := Option.map_eq_some_iff.1 hj'
        exact hn (hek ▸ List.mem_map_of_mem (List.mem_of_getElem? he))
      rw [repoint, ih _ hd hj', Std.HashMap.getElem?_modify]
      simp [hne]
      congr 1
      funext _
      omega

theorem nodup (h : Indexes index entries) : (entries.toList.map Prod.fst).Nodup := by
  rw [List.nodup_iff_pairwise_ne, List.pairwise_iff_getElem]
  intro i j hi hj hij he
  simp only [List.getElem_map, Array.getElem_toList] at he
  simp only [List.length_map, Array.length_toList] at hi hj
  have hki : entries[i]?.map Prod.fst = some entries[i].1 := by simp [hi]
  have hkj : entries[j]?.map Prod.fst = some entries[i].1 := by simp [hj, he]
  have := h.place_unique hki hkj
  omega

/-- The keys after the gap at `i` has been closed. -/
theorem key_eraseIdx_eq_some (h : Indexes index entries) {i : Nat} (hi : i < entries.size)
    (key : String) (j : Nat) :
    (entries.eraseIdxIfInBounds i)[j]?.map Prod.fst = some key ↔
      index[key]? = some (if j < i then j else j + 1) := by
  rw [Array.eraseIdxIfInBounds, dif_pos hi, Array.getElem?_eraseIdx, h key]
  split <;> rfl

theorem erase (h : Indexes index entries) {key : String} {i : Nat} (hi : index[key]? = some i) :
    Indexes (repoint (index.erase key) ((entries.eraseIdxIfInBounds i).toList.drop i) i)
      (entries.eraseIdxIfInBounds i) := by
  have hlt := h.lt_size hi
  have hkeys := h.key_eraseIdx_eq_some hlt
  generalize entries.eraseIdxIfInBounds i = entries' at hkeys
  have hdrop : ∀ (k : String) (d : Nat), (entries'.toList.drop i)[d]?.map Prod.fst = some k ↔
      index[k]? = some (i + d + 1) := by
    intro k d
    have := hkeys k (i + d)
    rw [if_neg (by omega)] at this
    rw [← this]
    simp
  have hnodup : ((entries'.toList.drop i).map Prod.fst).Nodup := by
    rw [List.nodup_iff_pairwise_ne, List.pairwise_iff_getElem]
    intro a b ha hb hab he
    have ha' := (hdrop _ a).1 (by rw [← List.getElem?_map]; exact List.getElem?_eq_getElem ha)
    have hb' := (hdrop _ b).1 (by rw [← List.getElem?_map]; exact List.getElem?_eq_getElem hb)
    rw [he, hb'] at ha'
    have := Option.some.inj ha'
    omega
  intro k j
  rw [hkeys k j]
  by_cases hmem : k ∈ (entries'.toList.drop i).map Prod.fst
  · -- The key stands after the gap, so it has moved up by one.
    obtain ⟨d, hd⟩ := List.mem_iff_getElem?.1 hmem
    rw [List.getElem?_map] at hd
    have hk := (hdrop k d).1 hd
    have hne : key ≠ k := by
      rintro rfl
      rw [hi] at hk
      have := Option.some.inj hk
      omega
    rw [repoint_of_getElem? i hnodup hd, Std.HashMap.getElem?_erase, hk]
    simp only [beq_iff_eq, hne, if_false, Option.map_some, Option.some.injEq]
    split <;> omega
  · rw [repoint_of_not_mem _ _ hmem, Std.HashMap.getElem?_erase]
    by_cases hne : key = k
    · subst hne
      rw [hi]
      simp only [beq_self_eq_true, if_true, reduceCtorEq, Option.some.injEq, false_iff]
      split <;> omega
    · have hbefore : ∀ p, index[k]? = some p → p < i := by
        intro p hp
        apply Classical.byContradiction
        intro hpi
        have hpne : p ≠ i := by
          rintro rfl
          exact hne (Option.some.inj (((h key p).1 hi).symm.trans ((h k p).1 hp)))
        have hd := (hdrop k (p - i - 1)).2 (by rw [hp]; congr 1; omega)
        rw [← List.getElem?_map] at hd
        exact hmem (List.mem_of_getElem? hd)
      simp only [beq_iff_eq, hne, if_false]
      constructor
      · intro hj
        rw [if_pos (hbefore j hj), hj]
      · intro hj
        split at hj
        · exact hj
        · have := hbefore _ hj
          omega

theorem mapValues {β : Type} (h : Indexes index entries) (f : String → α → β) :
    Indexes index (entries.map fun e => (e.1, f e.1 e.2)) := by
  intro k j
  rw [h k j, Array.getElem?_map, Option.map_map]
  rfl

end Indexes

/-- A map from texts that keeps the order of its entries. -/
structure OrderedMap (α : Type) where
  entries : Array (String × α)
  index : Std.HashMap String Nat
  indexes : Indexes index entries

namespace OrderedMap

variable {α : Type}

def empty : OrderedMap α := ⟨#[], ∅, .empty⟩

/-- The map without entries, with room for `n` of them. -/
def withCapacity (n : Nat) : OrderedMap α :=
  ⟨.emptyWithCapacity n, .emptyWithCapacity n, by intro key i; simp⟩

def size (m : OrderedMap α) : Nat := m.entries.size

def isEmpty (m : OrderedMap α) : Bool := m.entries.isEmpty

def toList (m : OrderedMap α) : List (String × α) := m.entries.toList

def keys (m : OrderedMap α) : List String := m.toList.map Prod.fst

def values (m : OrderedMap α) : List α := m.toList.map Prod.snd

def contains (m : OrderedMap α) (key : String) : Bool := m.index.contains key

def get? (m : OrderedMap α) (key : String) : Option α :=
  m.index[key]?.bind fun i => m.entries[i]?.map Prod.snd

/-- Gives a key a value: in place if the key is there, else at the end. The value that was there
before comes with the new map. -/
def insert (m : OrderedMap α) (key : String) (value : α) : Option α × OrderedMap α :=
  match h : m.index[key]? with
  | some i =>
    (m.entries[i]?.map Prod.snd,
      ⟨m.entries.setIfInBounds i (key, value), m.index, m.indexes.overwrite h value⟩)
  | none =>
    (none,
      ⟨m.entries.push (key, value), m.index.insert key m.entries.size, m.indexes.push h value⟩)

/-- Gives a key a value if the key is there. -/
def set (m : OrderedMap α) (key : String) (value : α) : OrderedMap α :=
  match h : m.index[key]? with
  | some i => ⟨m.entries.setIfInBounds i (key, value), m.index, m.indexes.overwrite h value⟩
  | none => m

/-- Removes a key; the entries after it move up by one place. Its value comes with what is left. -/
def erase (m : OrderedMap α) (key : String) : Option α × OrderedMap α :=
  match h : m.index[key]? with
  | some i =>
    let entries := m.entries.eraseIdxIfInBounds i
    (m.entries[i]?.map Prod.snd,
      ⟨entries, Indexes.repoint (m.index.erase key) (entries.toList.drop i) i, m.indexes.erase h⟩)
  | none => (none, m)

/-- Changes every value, keys and order staying as they are. -/
def mapValues {β : Type} (m : OrderedMap α) (f : String → α → β) : OrderedMap β :=
  ⟨m.entries.map fun e => (e.1, f e.1 e.2), m.index, m.indexes.mapValues f⟩

def insertAll (m : OrderedMap α) (pairs : List (String × α)) : OrderedMap α :=
  pairs.foldl (fun m p => (m.insert p.1 p.2).2) m

/-- The map collected from the pairs of a list. -/
def ofList (pairs : List (String × α)) : OrderedMap α := empty.insertAll pairs

end OrderedMap

end GuardTree
