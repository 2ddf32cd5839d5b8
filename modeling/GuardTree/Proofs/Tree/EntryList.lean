import GuardTree.Tree.Node
import Mathlib.Data.List.Forall2

/-! # Ordered maps as lists of entries

A list of entries is the plain view of an ordered map: `insert` overwrites in place or appends, and
`erase` deletes. Each operation of `OrderedMap` is stated here through `toList` as the operation on
lists, so that nothing else has to look at the index.

* `Operation`: what can be done to a map; `Operation.apply` does it to an ordered map and
  `Operation.onEntries` to a list.
* `run_apply`: any sequence of operations gives the same answers and the same entries on both.
* `same_ofMap_iff`: the entries of two maps decide whether they are equal. Trees are equal in the
  usual sense, but that floating-point numbers are compared as numbers (`Scalar.same_iff`).
-/

namespace GuardTree

set_option autoImplicit false

namespace EntryList

variable {α : Type}

def update (es : List (String × α)) (key : String) (f : α → α) : List (String × α) :=
  es.map fun e => if e.1 = key then (e.1, f e.2) else e

/-- Overwrites in place if the key is there, else appends. -/
def insert (es : List (String × α)) (key : String) (value : α) : List (String × α) :=
  if key ∈ es.map Prod.fst then update es key fun _ => value else es ++ [(key, value)]

def erase (es : List (String × α)) (key : String) : List (String × α) :=
  es.filter fun e => e.1 ≠ key

def insertAll (es pairs : List (String × α)) : List (String × α) :=
  pairs.foldl (fun es p => insert es p.1 p.2) es

/-! ## Distinct keys

If no key stands twice, an operation on the place of a key is one on all entries with that key. -/

section Place

variable {es : List (String × α)} {key : String} {value : α} {i : Nat}

theorem mem_keys (hi : es[i]? = some (key, value)) : key ∈ es.map Prod.fst :=
  List.mem_map_of_mem (List.mem_of_getElem? hi)

theorem update_of_not_mem (hk : key ∉ es.map Prod.fst) (f : α → α) : update es key f = es := by
  have hid : ∀ e ∈ es, (if e.1 = key then (e.1, f e.2) else e) = id e := by
    intro e he
    have hne : e.1 ≠ key := fun h => hk (h ▸ List.mem_map_of_mem he)
    simp [hne]
  rw [update, List.map_congr_left hid, List.map_id]

theorem erase_of_not_mem (hk : key ∉ es.map Prod.fst) : erase es key = es := by
  rw [erase, List.filter_eq_self]
  intro e he
  have hne : e.1 ≠ key := fun h => hk (h ▸ List.mem_map_of_mem he)
  simp [hne]

theorem lookup_eq_none_iff_not_mem : es.lookup key = none ↔ key ∉ es.map Prod.fst := by
  rw [List.lookup_eq_none_iff, List.mem_map]
  constructor
  · rintro h ⟨e, he, rfl⟩
    simpa using h e he
  · intro h e he
    rw [bne_iff_ne]
    rintro rfl
    exact h ⟨e, he, rfl⟩

/-- The only entry of its key, between the entries before it and those after it. -/
theorem split_at_place (hd : (es.map Prod.fst).Nodup) (hi : es[i]? = some (key, value)) :
    ∃ xs ys, es = xs ++ (key, value) :: ys ∧ i = xs.length ∧
      key ∉ xs.map Prod.fst ∧ key ∉ ys.map Prod.fst := by
  induction es generalizing i with
  | nil => simp at hi
  | cons e es ih =>
    obtain ⟨hn, hd⟩ := List.nodup_cons.1 hd
    cases i with
    | zero =>
      obtain rfl : e = (key, value) := by simpa using hi
      exact ⟨[], es, rfl, rfl, List.not_mem_nil, hn⟩
    | succ i =>
      have hi' : es[i]? = some (key, value) := by simpa using hi
      obtain ⟨xs, ys, rfl, rfl, hxs, hys⟩ := ih hd hi'
      have hne : key ≠ e.1 := fun h => hn (h ▸ mem_keys hi')
      refine ⟨e :: xs, ys, rfl, rfl, ?_, hys⟩
      rw [List.map_cons, List.mem_cons, not_or]
      exact ⟨hne, hxs⟩

theorem set_eq_update (hd : (es.map Prod.fst).Nodup) (hi : es[i]? = some (key, value))
    (f : α → α) : es.set i (key, f value) = update es key f := by
  obtain ⟨xs, ys, rfl, rfl, hxs, hys⟩ := split_at_place hd hi
  have hx := update_of_not_mem hxs f
  have hy := update_of_not_mem hys f
  rw [update] at hx hy ⊢
  simp [hx, hy]

theorem eraseIdx_eq_erase (hd : (es.map Prod.fst).Nodup) (hi : es[i]? = some (key, value)) :
    es.eraseIdx i = erase es key := by
  obtain ⟨xs, ys, rfl, rfl, hxs, hys⟩ := split_at_place hd hi
  have hx := erase_of_not_mem hxs
  have hy := erase_of_not_mem hys
  rw [erase] at hx hy ⊢
  rw [List.filter_append, hx, List.filter_cons, if_neg (by simp), hy,
    List.eraseIdx_append_of_length_le (Nat.le_refl _)]
  simp

theorem lookup_place (hd : (es.map Prod.fst).Nodup) (hi : es[i]? = some (key, value)) :
    es.lookup key = some value := by
  obtain ⟨xs, ys, rfl, rfl, hxs, -⟩ := split_at_place hd hi
  rw [List.lookup_append, lookup_eq_none_iff_not_mem.2 hxs]
  simp

end Place

end EntryList

/-! ## The operations of ordered maps through their entries -/

namespace OrderedMap

variable {α : Type} (m : OrderedMap α) (key : String)

theorem nodup_keys : (m.toList.map Prod.fst).Nodup := m.indexes.nodup

theorem getElem?_toList {i : Nat} (hi : m.index[key]? = some i) :
    ∃ value, m.toList[i]? = some (key, value) := by
  obtain ⟨e, he, hk⟩ := Option.map_eq_some_iff.1 ((m.indexes key i).1 hi)
  subst hk
  exact ⟨e.2, by simpa [toList] using he⟩

theorem not_mem_keys (hi : m.index[key]? = none) : key ∉ m.toList.map Prod.fst := by
  intro hk
  obtain ⟨i, hi'⟩ := List.mem_iff_getElem?.1 hk
  have := (m.indexes key i).2 (by simpa [toList] using hi')
  simp [hi] at this

@[simp] theorem toList_empty : (empty : OrderedMap α).toList = [] := rfl

@[simp] theorem toList_withCapacity (n : Nat) : (withCapacity n : OrderedMap α).toList = [] := rfl

/-- What an insertion gives back is the value that was there. -/
theorem insert_fst (value : α) : (m.insert key value).1 = m.get? key := by
  unfold insert
  split
  · rename_i i hi
    simp [get?, hi]
  · rename_i hi
    simp [get?, hi]

theorem toList_insert (value : α) :
    (m.insert key value).2.toList = EntryList.insert m.toList key value := by
  rw [EntryList.insert]
  unfold insert
  split
  · rename_i i hi
    obtain ⟨old, hold⟩ := m.getElem?_toList key hi
    rw [if_pos (EntryList.mem_keys hold), ← EntryList.set_eq_update m.nodup_keys hold]
    simp [toList]
  · rename_i hi
    rw [if_neg (m.not_mem_keys key hi)]
    simp [toList]

theorem get?_eq_lookup : m.get? key = m.toList.lookup key := by
  rw [get?]
  cases hi : m.index[key]? with
  | some i =>
    obtain ⟨value, hv⟩ := m.getElem?_toList key hi
    rw [EntryList.lookup_place m.nodup_keys hv]
    rw [toList, Array.getElem?_toList] at hv
    simp [hv]
  | none =>
    rw [Option.bind_none, EntryList.lookup_eq_none_iff_not_mem.2 (m.not_mem_keys key hi)]

theorem contains_eq_isSome : m.contains key = (m.toList.lookup key).isSome := by
  rw [contains, Std.HashMap.contains_eq_isSome_getElem?]
  cases hi : m.index[key]? with
  | some i =>
    obtain ⟨value, hv⟩ := m.getElem?_toList key hi
    rw [EntryList.lookup_place m.nodup_keys hv]
    rfl
  | none =>
    rw [EntryList.lookup_eq_none_iff_not_mem.2 (m.not_mem_keys key hi)]
    rfl

/-- What a removal gives back is the value that was there. -/
theorem erase_fst : (m.erase key).1 = m.get? key := by
  unfold erase
  split
  · rename_i i hi
    simp [get?, hi]
  · rename_i hi
    simp [get?, hi]

theorem toList_erase : (m.erase key).2.toList = EntryList.erase m.toList key := by
  unfold erase
  split
  · rename_i i hi
    obtain ⟨value, hv⟩ := m.getElem?_toList key hi
    have hlt : i < m.entries.size := m.indexes.lt_size hi
    rw [← EntryList.eraseIdx_eq_erase m.nodup_keys hv]
    simp [toList, Array.eraseIdxIfInBounds, hlt]
  · rename_i hi
    rw [EntryList.erase_of_not_mem (m.not_mem_keys key hi)]

theorem toList_set {old : α} (hk : m.get? key = some old) (f : α → α) :
    (m.set key (f old)).toList = EntryList.update m.toList key f := by
  unfold set
  split
  · rename_i i hi
    obtain ⟨value, hv⟩ := m.getElem?_toList key hi
    rw [get?_eq_lookup, EntryList.lookup_place m.nodup_keys hv] at hk
    obtain rfl := Option.some.inj hk
    rw [← EntryList.set_eq_update m.nodup_keys hv]
    simp [toList]
  · rename_i hi
    simp [get?, hi] at hk

theorem toList_mapValues {β : Type} (f : String → α → β) :
    (m.mapValues f).toList = m.toList.map fun e => (e.1, f e.1 e.2) := by
  simp [toList, mapValues]

theorem toList_insertAll (pairs : List (String × α)) :
    (m.insertAll pairs).toList = EntryList.insertAll m.toList pairs := by
  induction pairs generalizing m with
  | nil => rfl
  | cons p ps ih =>
    have h := ih (m.insert p.1 p.2).2
    rw [toList_insert] at h
    exact h

theorem toList_ofList (pairs : List (String × α)) :
    (ofList pairs).toList = EntryList.insertAll [] pairs :=
  toList_insertAll empty pairs

end OrderedMap

/-! ## Sequences of operations -/

inductive Operation (α : Type)
  | new
  | withCapacity (n : Nat)
  | insert (key : String) (value : α)
  | erase (key : String)
  | get (key : String)
  /-- Looks a key up and, if it is there, writes to its value. -/
  | update (key : String) (f : α → α)
  | contains (key : String)
  /-- Goes through the entries and writes to their values. -/
  | rewrite (f : String → α → α)
  /-- Takes the map apart and collects what `f` makes of its entries. -/
  | collect (f : List (String × α) → List (String × α))

inductive Answer (α : Type)
  | done
  /-- The value that was found, overwritten or removed. -/
  | value (v : Option α)
  | presence (b : Bool)
  /-- The entries that were gone through. -/
  | entries (es : List (String × α))

namespace Operation

variable {α : Type}

def apply (op : Operation α) (m : OrderedMap α) : Answer α × OrderedMap α :=
  match op with
  | .new => (.done, .empty)
  | .withCapacity n => (.done, .withCapacity n)
  | .insert key value => (m.insert key value).map .value id
  | .erase key => (m.erase key).map .value id
  | .get key => (.value (m.get? key), m)
  | .update key f =>
    match m.get? key with
    | some old => (.value (some old), m.set key (f old))
    | none => (.value none, m)
  | .contains key => (.presence (m.contains key), m)
  | .rewrite f => (.entries m.toList, m.mapValues f)
  | .collect f => (.entries m.toList, .ofList (f m.toList))

def onEntries (op : Operation α) (es : List (String × α)) : Answer α × List (String × α) :=
  match op with
  | .new => (.done, [])
  | .withCapacity _ => (.done, [])
  | .insert key value => (.value (es.lookup key), EntryList.insert es key value)
  | .erase key => (.value (es.lookup key), EntryList.erase es key)
  | .get key => (.value (es.lookup key), es)
  | .update key f => (.value (es.lookup key), EntryList.update es key f)
  | .contains key => (.presence (es.lookup key).isSome, es)
  | .rewrite f => (.entries es, es.map fun e => (e.1, f e.1 e.2))
  | .collect f => (.entries es, EntryList.insertAll [] (f es))

/-- The answers of a sequence of operations and what it leaves behind. -/
def run {σ : Type} (step : Operation α → σ → Answer α × σ) :
    List (Operation α) → σ → List (Answer α) × σ
  | [], s => ([], s)
  | op :: ops, s =>
    let next := run step ops (step op s).2
    ((step op s).1 :: next.1, next.2)

theorem apply_eq_onEntries (op : Operation α) (m : OrderedMap α) :
    ((op.apply m).1, (op.apply m).2.toList) = op.onEntries m.toList := by
  cases op with
  | new => rfl
  | withCapacity n => rfl
  | insert key value => simp [apply, onEntries, m.insert_fst, m.toList_insert, m.get?_eq_lookup]
  | erase key => simp [apply, onEntries, m.erase_fst, m.toList_erase, m.get?_eq_lookup]
  | get key => simp [apply, onEntries, m.get?_eq_lookup]
  | update key f =>
    simp only [apply, onEntries]
    cases hk : m.get? key with
    | some old => rw [← m.get?_eq_lookup, hk, ← m.toList_set key hk f]
    | none =>
      rw [m.get?_eq_lookup] at hk
      rw [hk, EntryList.update_of_not_mem (EntryList.lookup_eq_none_iff_not_mem.1 hk)]
  | contains key => simp [apply, onEntries, m.contains_eq_isSome]
  | rewrite f => simp [apply, onEntries, m.toList_mapValues]
  | collect f => simp [apply, onEntries, OrderedMap.toList_ofList]

theorem run_apply (ops : List (Operation α)) (m : OrderedMap α) :
    ((run apply ops m).1, (run apply ops m).2.toList) = run onEntries ops m.toList := by
  induction ops generalizing m with
  | nil => rfl
  | cons op ops ih =>
    have hop := op.apply_eq_onEntries m
    simp only [run, ← hop, ← ih (op.apply m).2]

end Operation

/-! ## Equality of trees -/

theorem Scalar.same_iff {a b : Scalar} :
    a.same b = true ↔
      a = b ∧ (∀ x, a ≠ .float x) ∨ ∃ x y, a = .float x ∧ b = .float y ∧ (x == y) = true := by
  cases a <;> cases b <;> simp [same]

/-- Leaves are compared by equality, but for floating-point numbers. -/
theorem Scalar.same_iff_eq {a b : Scalar} (h : ∀ x, a ≠ .float x) : a.same b = true ↔ a = b := by
  rw [same_iff]
  constructor
  · rintro (⟨hab, -⟩ | ⟨x, _, ha, -⟩)
    · exact hab
    · exact absurd ha (h x)
  · exact fun hab => .inl ⟨hab, h⟩

theorem forall₂_iff_eq {α : Type} {R : α → α → Prop} {xs ys : List α}
    (h : ∀ x ∈ xs, ∀ y, R x y ↔ x = y) : List.Forall₂ R xs ys ↔ xs = ys := by
  induction xs generalizing ys with
  | nil => cases ys <;> simp
  | cons x xs ih =>
    rw [List.forall_mem_cons] at h
    cases ys with
    | nil => simp
    | cons y ys => rw [List.forall₂_cons, h.1, ih h.2, List.cons.injEq]

namespace Node

/-- The same keys with equal values, in the same order. -/
def SameEntries (xs ys : List (String × Node)) : Prop :=
  List.Forall₂ (fun x y => x.1 = y.1 ∧ x.2.same y.2 = true) xs ys

theorem sameItems_iff (as bs : List Node) :
    sameItems as bs = true ↔ List.Forall₂ (fun a b => a.same b = true) as bs := by
  induction as generalizing bs with
  | nil => cases bs <;> simp [sameItems]
  | cons a as ih =>
    cases bs with
    | nil => simp [sameItems]
    | cons b bs => simp [sameItems, ih]

theorem sameEntries_iff (xs ys : List (String × Node)) :
    sameEntries xs ys = true ↔ SameEntries xs ys := by
  induction xs generalizing ys with
  | nil => cases ys <;> simp [sameEntries, SameEntries]
  | cons x xs ih =>
    cases ys with
    | nil => simp [sameEntries, SameEntries]
    | cons y ys => simp [sameEntries, SameEntries, ih, and_assoc]

/-- Trees without floating-point numbers are compared by equality. -/
theorem same_iff_eq {n m : Node} (h : n.FloatFree) : n.same m = true ↔ n = m := by
  induction h generalizing m with
  | scalar h =>
    cases m with
    | scalar b => rw [same, Scalar.same_iff_eq h, scalar.injEq]
    | _ => simp [same]
  | list _ ih =>
    cases m with
    | list bs =>
      rw [same, sameItems_iff, list.injEq]
      exact forall₂_iff_eq fun a ha b => ih a ha
    | _ => simp [same]
  | mapping _ ih =>
    cases m with
    | mapping bs =>
      rw [same, sameEntries_iff, mapping.injEq]
      refine forall₂_iff_eq fun x hx y => ?_
      rw [ih x hx, Prod.ext_iff]
    | _ => simp [same]

theorem same_ofMap_iff (m m' : OrderedMap Node) :
    (ofMap m).same (ofMap m') = true ↔ SameEntries m.toList m'.toList := by
  rw [ofMap, ofMap, same, sameEntries_iff]

end Node

namespace Operation

/-- **Ordered maps are lists of entries.** Whatever is done to a map, in whatever order, gives the
answers and the entries that it gives on a list; the index stays the inverse of the entries; and two
maps are equal exactly if the lists are. -/
theorem run_refines_entries (ops : List (Operation Node)) (m : OrderedMap Node) :
    (run apply ops m).1 = (run onEntries ops m.toList).1 ∧
    (run apply ops m).2.toList = (run onEntries ops m.toList).2 ∧
    (∀ (key : String) (i : Nat), (run apply ops m).2.index[key]? = some i ↔
      ∃ value : Node, (run apply ops m).2.toList[i]? = some (key, value)) ∧
    ((run apply ops m).2.toList.map Prod.fst).Nodup ∧
    ∀ (ops' : List (Operation Node)) (m' : OrderedMap Node),
      (Node.ofMap (run apply ops m).2).same (Node.ofMap (run apply ops' m').2) = true ↔
        Node.SameEntries (run onEntries ops m.toList).2 (run onEntries ops' m'.toList).2 := by
  have hrun := run_apply ops m
  refine ⟨congrArg Prod.fst hrun, congrArg Prod.snd hrun, ?_, ?_, ?_⟩
  · intro key i
    constructor
    · exact OrderedMap.getElem?_toList _ key
    · rintro ⟨value, hv⟩
      rw [OrderedMap.indexes]
      simpa [OrderedMap.toList] using congrArg (Option.map Prod.fst) hv
  · exact OrderedMap.nodup_keys _
  · intro ops' m'
    rw [Node.same_ofMap_iff, ← run_apply ops m, ← run_apply ops' m']

end Operation

end GuardTree
