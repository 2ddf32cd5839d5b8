import GuardTree.Proofs.Tree.EntryList
import Mathlib

/-! # What insertion leaves under a key

After a list of pairs has been inserted, a key has the value of its last pair, or else the value it
had (`lookup_insertAll`). Insertion puts in nothing but its pairs (`mem_insertAll`), and appends
them all if no key is met twice (`insertAll_of_nodup`). The keys that were there stay in front
(`keys_prefix_insertAll`), a key that is not inserted can be taken out before or after
(`erase_insertAll`), and values are only passed on (`insertAll_map`).
-/

namespace GuardTree.EntryList

set_option autoImplicit false

variable {α : Type} {es ps : List (String × α)} {key : String}

theorem lookup_of_mem (hd : (es.map Prod.fst).Nodup) {value : α} (h : (key, value) ∈ es) :
    es.lookup key = some value := by
  obtain ⟨i, hi⟩ := List.mem_iff_getElem?.1 h
  exact lookup_place hd hi

theorem lookup_cons (e : String × α) (es : List (String × α)) (key : String) :
    (e :: es).lookup key = if key = e.1 then some e.2 else es.lookup key := by
  rw [List.lookup_cons]
  cases hk : key == e.1 with
  | true => rw [if_pos (eq_of_beq hk)]
  | false => rw [if_neg (ne_of_beq_false hk)]

theorem lookup_update (es : List (String × α)) (key k : String) (f : α → α) :
    (update es k f).lookup key = if key = k then (es.lookup key).map f else es.lookup key := by
  induction es with
  | nil => simp [update]
  | cons e es ih =>
    have hfst : (if e.1 = k then (e.1, f e.2) else e).1 = e.1 := by split <;> rfl
    rw [update] at ih ⊢
    rw [List.map_cons, lookup_cons, lookup_cons, ih, hfst]
    by_cases hk : key = e.1
    · rw [if_pos hk, if_pos hk, hk]
      split <;> rfl
    · rw [if_neg hk, if_neg hk]

theorem lookup_insert (es : List (String × α)) (key k : String) (value : α) :
    (insert es k value).lookup key = if key = k then some value else es.lookup key := by
  unfold insert
  split
  case isTrue hk =>
    rw [lookup_update]
    split
    case isTrue heq =>
      obtain ⟨v, hv⟩ := Option.ne_none_iff_exists'.1
        (fun hnone => lookup_eq_none_iff_not_mem.1 hnone hk : es.lookup k ≠ none)
      rw [heq, hv]
      rfl
    case isFalse => rfl
  case isFalse hk =>
    rw [List.lookup_append, lookup_cons]
    split
    case isTrue heq =>
      rw [heq, lookup_eq_none_iff_not_mem.2 hk]
      rfl
    case isFalse => simp

theorem lookup_insertAll (es ps : List (String × α)) (key : String) :
    (insertAll es ps).lookup key = (ps.reverse.lookup key).or (es.lookup key) := by
  induction ps generalizing es with
  | nil => rfl
  | cons p ps ih =>
    have hins := ih (insert es p.1 p.2)
    rw [insertAll] at hins ⊢
    rw [List.foldl_cons, hins, lookup_insert, List.reverse_cons, List.lookup_append, Option.or_assoc,
      lookup_cons]
    split <;> rfl

theorem mem_insert {e : String × α} {value : α} (h : e ∈ insert es key value) :
    e = (key, value) ∨ e ∈ es ∧ e.1 ≠ key := by
  unfold insert at h
  split at h
  case isTrue =>
    obtain ⟨e', he', rfl⟩ := List.mem_map.1 h
    split
    case isTrue hk => exact .inl (by rw [hk])
    case isFalse hk => exact .inr ⟨he', hk⟩
  case isFalse hk =>
    obtain h | h := List.mem_append.1 h
    · exact .inr ⟨h, fun heq => hk (heq ▸ List.mem_map_of_mem h)⟩
    · exact .inl (List.mem_singleton.1 h)

theorem mem_insertAll {e : String × α} (h : e ∈ insertAll es ps) : e ∈ es ∨ e ∈ ps := by
  induction ps generalizing es with
  | nil => exact .inl h
  | cons p ps ih =>
    rw [insertAll, List.foldl_cons] at h
    obtain h | h := ih h
    · obtain rfl | ⟨h, -⟩ := mem_insert h
      · exact .inr List.mem_cons_self
      · exact .inl h
    · exact .inr (List.mem_cons_of_mem _ h)

theorem insertAll_of_nodup (hd : ((es ++ ps).map Prod.fst).Nodup) : insertAll es ps = es ++ ps := by
  induction ps generalizing es with
  | nil => simp [insertAll]
  | cons p ps ih =>
    have happ : es ++ p :: ps = es ++ [p] ++ ps := by simp
    have hp : p.1 ∉ es.map Prod.fst := by
      rw [List.map_append, List.map_cons, List.nodup_append] at hd
      exact fun hm => hd.2.2 _ hm _ List.mem_cons_self rfl
    rw [happ] at hd ⊢
    rw [← ih hd, insertAll, List.foldl_cons, insert, if_neg hp]
    rfl

theorem insertAll_append (es ps qs : List (String × α)) :
    insertAll es (ps ++ qs) = insertAll (insertAll es ps) qs :=
  List.foldl_append

/-! ## What stands before -/

theorem keys_update (es : List (String × α)) (key : String) (f : α → α) :
    (update es key f).map Prod.fst = es.map Prod.fst := by
  rw [update, List.map_map]
  refine List.map_congr_left fun e _ => ?_
  dsimp only [Function.comp_apply]
  split <;> rfl

theorem keys_prefix_insertAll (es ps : List (String × α)) :
    es.map Prod.fst <+: (insertAll es ps).map Prod.fst := by
  induction ps generalizing es with
  | nil => exact List.prefix_rfl
  | cons p ps ih =>
    have hinsert : es.map Prod.fst <+: (insert es p.1 p.2).map Prod.fst := by
      unfold insert
      split
      · rw [keys_update]
      · rw [List.map_append]
        exact List.prefix_append _ _
    exact hinsert.trans (ih _)

/-! ## Insertion after a key has been taken out -/

theorem lookup_erase_of_ne {k : String} (h : k ≠ key) :
    (erase es key).lookup k = es.lookup k := by
  induction es with
  | nil => rfl
  | cons e es ih =>
    rw [erase] at ih ⊢
    rw [List.filter_cons]
    split
    case isTrue => rw [lookup_cons, lookup_cons, ih]
    case isFalse he =>
      have hke : k ≠ e.1 := fun heq => he (by simpa [← heq] using h)
      rw [ih, lookup_cons, if_neg hke]

theorem mem_keys_erase_iff {k : String} (h : k ≠ key) :
    k ∈ (erase es key).map Prod.fst ↔ k ∈ es.map Prod.fst := by
  rw [← not_iff_not, ← lookup_eq_none_iff_not_mem, lookup_erase_of_ne h, lookup_eq_none_iff_not_mem]

theorem erase_insert_of_ne {k : String} (h : k ≠ key) (value : α) :
    erase (insert es k value) key = insert (erase es key) k value := by
  unfold insert
  simp only [mem_keys_erase_iff h]
  split
  · have hfst : ∀ x : String × α, (if x.1 = k then (x.1, value) else x).1 = x.1 := by
      intro x
      split <;> rfl
    rw [erase, update, List.filter_map]
    simp only [Function.comp_def, hfst]
    rfl
  · rw [erase, List.filter_append, List.filter_cons, if_pos (by simpa using h)]
    rfl

theorem erase_insertAll (h : key ∉ ps.map Prod.fst) :
    erase (insertAll es ps) key = insertAll (erase es key) ps := by
  induction ps generalizing es with
  | nil => rfl
  | cons p ps ih =>
    rw [List.map_cons, List.mem_cons, not_or] at h
    have hps : erase (insertAll (insert es p.1 p.2) ps) key =
        insertAll (erase (insert es p.1 p.2) key) ps := ih h.2
    rw [erase_insert_of_ne (Ne.symm h.1)] at hps
    exact hps

/-! ## Values are only passed on -/

theorem insert_map {α β : Type} (g : α → β) (es : List (String × α)) (key : String) (value : α) :
    insert (es.map fun e => (e.1, g e.2)) key (g value) =
      (insert es key value).map fun e => (e.1, g e.2) := by
  have hkeys : (es.map fun e => (e.1, g e.2)).map Prod.fst = es.map Prod.fst := by simp
  unfold insert
  rw [hkeys]
  split
  · unfold update
    rw [List.map_map, List.map_map]
    refine List.map_congr_left fun e _ => ?_
    dsimp only [Function.comp_apply]
    split <;> rfl
  · simp

theorem insertAll_map {α β : Type} (g : α → β) (es ps : List (String × α)) :
    insertAll (es.map fun e => (e.1, g e.2)) (ps.map fun p => (p.1, g p.2)) =
      (insertAll es ps).map fun e => (e.1, g e.2) := by
  induction ps generalizing es with
  | nil => rfl
  | cons p ps ih =>
    have hins := ih (insert es p.1 p.2)
    rw [← insert_map] at hins
    exact hins

end GuardTree.EntryList

namespace GuardTree.OrderedMap

theorem toList_ofList_of_nodup {α : Type} {ps : List (String × α)}
    (h : (ps.map Prod.fst).Nodup) : (ofList ps).toList = ps := by
  rw [toList_ofList, EntryList.insertAll_of_nodup h, List.nil_append]

end GuardTree.OrderedMap
