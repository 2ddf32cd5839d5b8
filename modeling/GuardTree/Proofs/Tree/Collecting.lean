import GuardTree.Proofs.Tree.EntryLookup

/-! # What collecting pairs leaves

`Collects ps es`: the entries `es` have the keys of the pairs `ps`, each once and in the order in
which they first occur, and with each key the value of its last pair. There is one such list, and it
is what insertion of the pairs gives (`collects_iff`).
-/

namespace GuardTree

set_option autoImplicit false

namespace EntryList

variable {α : Type} {es es' ps : List (String × α)} {e : String × α}

structure Collects (ps es : List (String × α)) : Prop where
  keys : es.map Prod.fst = (ps.map Prod.fst).eraseDups
  values : ∀ e ∈ es, ∃ before after, ps = before ++ e :: after ∧ e.1 ∉ after.map Prod.fst

/-! ## Insertion collects -/

theorem keys_insert (es : List (String × α)) (key : String) (value : α) :
    (insert es key value).map Prod.fst =
      es.map Prod.fst ++ if key ∈ es.map Prod.fst then [] else [key] := by
  unfold insert
  split
  · rw [keys_update, List.append_nil]
  · rw [List.map_append]
    rfl

theorem eraseDups_concat (ks : List String) (k : String) :
    (ks ++ [k]).eraseDups = ks.eraseDups ++ if k ∈ ks then [] else [k] := by
  rw [List.eraseDups_append]
  by_cases hk : k ∈ ks
  · simp [List.removeAll, hk]
  · simp [List.removeAll, hk, List.eraseDups_cons]

theorem collects_insertAll (ps : List (String × α)) : Collects ps (insertAll [] ps) := by
  induction ps using List.reverseRecOn with
  | nil => exact ⟨rfl, by simp [insertAll]⟩
  | append_singleton ps p ih =>
    have hmem : p.1 ∈ (insertAll [] ps).map Prod.fst ↔ p.1 ∈ ps.map Prod.fst := by
      rw [ih.keys, List.mem_eraseDups]
    have hlast : insertAll [] (ps ++ [p]) = insert (insertAll [] ps) p.1 p.2 := insertAll_append ..
    constructor
    · rw [hlast, keys_insert, List.map_append, List.map_singleton, eraseDups_concat, ih.keys]
      simp only [← ih.keys, hmem]
    · rw [hlast]
      intro e he
      obtain rfl | ⟨he, hne⟩ := mem_insert he
      · exact ⟨ps, [], rfl, by simp⟩
      · obtain ⟨before, after, rfl, hafter⟩ := ih.values e he
        refine ⟨before, after ++ [p], by simp, ?_⟩
        simpa [hne] using hafter

/-! ## Only insertion does -/

theorem Collects.lookup (h : Collects ps es) (he : e ∈ es) : ps.reverse.lookup e.1 = some e.2 := by
  obtain ⟨before, after, rfl, hafter⟩ := h.values e he
  have hnone : after.reverse.lookup e.1 = none := by
    rw [lookup_eq_none_iff_not_mem]
    simpa using hafter
  rw [List.reverse_append, List.reverse_cons, List.append_assoc, List.lookup_append, hnone,
    Option.none_or, List.singleton_append, lookup_cons, if_pos rfl]

/-- The keys and the values of their last pairs are all there is to it. -/
theorem Collects.map_some (h : Collects ps es) : es.map (fun e => (e.1, some e.2)) =
    (ps.map Prod.fst).eraseDups.map fun key => (key, ps.reverse.lookup key) := by
  rw [← h.keys, List.map_map]
  refine List.map_congr_left fun e he => ?_
  rw [Function.comp_apply, h.lookup he]

theorem Collects.unique (h : Collects ps es) (h' : Collects ps es') : es = es' := by
  have hinj : Function.Injective fun e : String × α => (e.1, some e.2) := by
    rintro ⟨k, v⟩ ⟨k', v'⟩ heq
    cases heq
    rfl
  exact List.map_injective_iff.2 hinj (h.map_some.trans h'.map_some.symm)

theorem collects_iff : Collects ps es ↔ insertAll [] ps = es :=
  ⟨(collects_insertAll ps).unique, fun h => h ▸ collects_insertAll ps⟩

example : insertAll [] [("a", 1), ("b", 2), ("a", 3)] = [("a", 3), ("b", 2)] := by decide

end EntryList

namespace OrderedMap

variable {α : Type}

theorem collects_ofList_iff {ps es : List (String × α)} :
    EntryList.Collects ps es ↔ (ofList ps).toList = es := by
  rw [EntryList.collects_iff, toList_ofList]

theorem toList_ofList_toList (m : OrderedMap α) : (ofList m.toList).toList = m.toList :=
  toList_ofList_of_nodup m.nodup_keys

theorem toList_ofList_append (xs ys : List (String × α)) :
    (ofList (xs ++ ys)).toList = (ofList ((ofList xs).toList ++ ys)).toList := by
  rw [toList_ofList, toList_ofList, EntryList.insertAll_append, EntryList.insertAll_append,
    ← toList_ofList xs, ← toList_ofList (ofList xs).toList, toList_ofList_toList]

end OrderedMap

end GuardTree
