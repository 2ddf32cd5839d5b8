import GuardTree.Proofs.Formula.GuardShape
import GuardTree.Proofs.Reduction.Arrival
import GuardTree.Proofs.Reduction.Runs

/-! # What a reduction does not look at

A mapping whose first choice is known may have any other values: its reduction is the same run
(`reduce_eq_of_chooses`). In a larger tree the two mappings are again interchangeable
(`reduce_ignores_unselected`), with one exception. Where the mapping has itself been selected, its
keys are taken as they are written, and if none of them is a guard then all its values are kept.
-/

namespace GuardTree

set_option autoImplicit false

namespace Engine

variable {e : Engine} {policy : Policy} {r : Option Resolver} {a : Arrival}
  {xs ys : List (String × Node)}

/-! ## After the keys -/

/-- The reduction of a node whose keys are taken as they are. -/
def settle (e : Engine) (policy : Policy) (r : Option Resolver) (n : Node) : Traced Node := do
  e.reducePlain policy r (← e.collapseNode policy n)

/-- What a guard selects is settled in its turn. -/
theorem settle_mapping_eq (entries : List (String × Node)) :
    e.settle policy r (.mapping entries) = (do
      if ← e.isGuarded entries then
        let entry ← e.select policy entries
        e.settle policy r entry.2
      else
        e.reducePlain policy r (.mapping entries)) := by
  rw [settle, collapseNode, collapse_eq_bind, Traced.bind_assoc]
  congr 1
  funext guarded
  cases guarded with
  | true =>
    simp only [if_true, Traced.bind_assoc]
    rfl
  | false => rfl

/-- The reduction of a mapping from the arrival on. -/
def reduceFrom (e : Engine) (policy : Policy) (r : Option Resolver) (a : Arrival)
    (entries : List (String × Node)) : Traced Node := do
  e.settle policy r (.mapping (← e.seen r a entries))

theorem reduceFrom_value (entries : List (String × Node)) :
    e.reduceFrom policy r .value entries = e.reduce policy r (.mapping entries) :=
  (reduce_mapping_eq_bind entries).symm

theorem reduceFrom_selected (entries : List (String × Node)) :
    e.reduceFrom policy r .selected entries = e.settle policy r (.mapping entries) := by
  rw [reduceFrom, seen, pure_bind]

/-! ## Two trees with the same keys -/

/-- The run goes on in the same way if it does so with what is selected, or else with the values. -/
theorem settle_agrees (hkeys : xs.map Prod.fst = ys.map Prod.fst)
    (hplain : (e.isGuarded xs).outcome = .ok false →
      (e.reducePlain policy r (.mapping xs)).Agrees Eq (e.reducePlain policy r (.mapping ys)))
    (hselect : ∀ x y, (e.isGuarded xs).outcome = .ok true →
      (e.select policy xs).outcome = .ok x → (e.isGuarded ys).outcome = .ok true →
      (e.select policy ys).outcome = .ok y → x.1 = y.1 →
      (e.settle policy r x.2).Agrees Eq (e.settle policy r y.2)) :
    (e.settle policy r (.mapping xs)).Agrees Eq (e.settle policy r (.mapping ys)) := by
  rw [settle_mapping_eq, settle_mapping_eq]
  refine (isGuarded_agrees hkeys).bind fun guarded guarded' hx hy hg => ?_
  subst hg
  cases guarded with
  | true =>
    refine (select_agrees policy (.of_keys_eq hkeys)).bind fun x y hsx hsy hxy => ?_
    exact hselect x y hx hsx hy hsy hxy.1
  | false => exact hplain hx

/-- The same value, or the mapping `ys` in the place of the mapping `xs`. -/
def Replaced (xs ys : List (String × Node)) (v w : Node) : Prop :=
  v = w ∨ v = .mapping xs ∧ w = .mapping ys

/-- What is replaced among the values matters only if the run comes to it. -/
theorem reducePlain_agrees {vs ws : List (String × Node)} (h : Entrywise (Replaced xs ys) vs ws)
    (hvalue : ∀ before key after results,
      (expandValues r vs).outcome = .ok (before ++ (key, .mapping xs) :: after) →
      (e.reduceEntries policy r before).outcome = .ok results →
      (key, .mapping xs) ∈ vs → (key, .mapping ys) ∈ ws →
      (e.reduce policy r (.mapping xs)).Agrees Eq (e.reduce policy r (.mapping ys))) :
    (e.reducePlain policy r (.mapping vs)).Agrees Eq (e.reducePlain policy r (.mapping ws)) := by
  have hexpand := expandValues_agrees (r := r) h
    (by
      rintro v w (rfl | ⟨rfl, rfl⟩)
      · exact .inl rfl
      · exact .inr ⟨rfl, rfl⟩)
    (fun n => .inl rfl)
  refine hexpand.bind fun vs' ws' hvs hws hvw => ?_
  have hentries : (e.reduceEntries policy r vs').Agrees (Entrywise Eq)
      (e.reduceEntries policy r ws') := by
    refine reduceEntries_agrees hvw fun before key v after w results hsplit hw hreplaced hb => ?_
    obtain rfl | ⟨rfl, rfl⟩ := hreplaced
    · exact .refl _
    · rw [hsplit] at hvs
      rw [reduceValue, reduceValue]
      refine (Traced.Agrees.refl _).bind fun _ _ _ _ _ => ?_
      have hx := mapping_mem_of_expandValues hvs (List.mem_append_right _ List.mem_cons_self)
      exact hvalue before key after results hvs hb hx (mapping_mem_of_expandValues hws hw)
  refine hentries.bind fun vs'' ws'' _ _ hvw' => ?_
  rw [hvw'.eq]
  exact .refl _

/-! ## Values that are not selected -/

variable {s s' t : Slot} {k : String} {v : Node}

/-- The mapping with other values beside the one that is selected has the same reduction. -/
theorem reduce_eq_of_chooses (hd : ((s.fill v).map Prod.fst).Nodup)
    (hc : e.Chooses policy r .value (s.fill v) (k, v)) (hs : e.Supplies r s k)
    (hss : s'.SameKeys s) :
    e.reduce policy r (.mapping (s'.fill v)) = e.reduce policy r (.mapping (s.fill v)) := by
  obtain ⟨found, hf, hg, hsel⟩ := hc
  have hkeys := (hss.fill v v).symm
  have hexpand := expandKeys_agrees (e := e) (r := r) (Entrywise.of_keys_eq hkeys)
  obtain ⟨found', hf', hentries⟩ := hexpand.exists_ok hf
  have hguarded := isGuarded_agrees (e := e) hentries.keys_eq
  obtain ⟨_, hg', rfl⟩ := hguarded.exists_ok hg
  have hselect := select_agrees (e := e) policy hentries
  obtain ⟨entry', hsel', hk, -⟩ := hselect.exists_ok hsel
  have hv : entry'.2 = v := by
    have hc' : e.Chooses policy r .value (s'.fill v) entry' := ⟨found', hf', hg', hsel'⟩
    exact hc'.eq_of_gives (hkeys ▸ hd) (hk ▸ hs.of_sameKeys hss)
  rw [← reduceFrom_value, ← reduceFrom_value]
  refine (Traced.bind_eq_bind hexpand.events hf hf' ?_).symm
  rw [settle_mapping_eq, settle_mapping_eq]
  refine Traced.bind_eq_bind hguarded.events hg hg' ?_
  refine Traced.bind_eq_bind hselect.events hsel hsel' ?_
  rw [hv]

/-- If there is a guard among the keys, the runs agree even with the keys left as they are. -/
theorem settle_agrees_of_chooses (hd : ((s.fill v).map Prod.fst).Nodup)
    (hc : e.Chooses policy r .value (s.fill v) (k, v)) (hs : e.Supplies r s k)
    (hss : s'.SameKeys s) (hguard : ∃ entry ∈ s.fill v, e.isGuard entry.1 = true) :
    (e.settle policy r (.mapping (s.fill v))).Agrees Eq
      (e.settle policy r (.mapping (s'.fill v))) := by
  have hkeys := hss.fill v v
  refine settle_agrees hkeys.symm (fun hplain => ?_) fun x y hgx hx hgy hy hk => ?_
  · obtain ⟨entry, hm, hguard⟩ := hguard
    have hfalse := isGuarded_ok_false_iff.1 hplain entry hm
    rw [hguard] at hfalse
    cases hfalse
  · have hcx : e.Chooses policy r .selected (s.fill v) x := ⟨_, rfl, hgx, hx⟩
    have hcy : e.Chooses policy r .selected (s'.fill v) y := ⟨_, rfl, hgy, hy⟩
    obtain rfl := (hcx.of_selected hd).unique hc
    have hd' : ((s'.fill v).map Prod.fst).Nodup := hkeys ▸ hd
    have hv : y.2 = v := (hcy.of_selected hd').eq_of_gives hd' (hk ▸ hs.of_sameKeys hss)
    exact .of_eq (congrArg (e.settle policy r) hv.symm)

/-! ## At any depth -/

/-- One step outwards: what stands in the slot matters only if the run comes to it. -/
theorem reduceFrom_fill_agrees (hd : ((t.fill (.mapping xs)).map Prod.fst).Nodup)
    (hvalue : ∀ found before key after results,
      (e.seen r a (t.fill (.mapping xs))).outcome = .ok found →
      (e.isGuarded found).outcome = .ok false →
      (expandValues r found).outcome = .ok (before ++ (key, .mapping xs) :: after) →
      (e.reduceEntries policy r before).outcome = .ok results → e.Gives r a t key →
      (e.reduceFrom policy r .value xs).Agrees Eq (e.reduceFrom policy r .value ys))
    (hselected : ∀ x, e.Chooses policy r a (t.fill (.mapping xs)) x → e.Gives r a t x.1 →
      (e.reduceFrom policy r .selected xs).Agrees Eq (e.reduceFrom policy r .selected ys)) :
    (e.reduceFrom policy r a (t.fill (.mapping xs))).Agrees Eq
      (e.reduceFrom policy r a (t.fill (.mapping ys))) := by
  have hkeys : (t.fill (.mapping xs)).map Prod.fst = (t.fill (.mapping ys)).map Prod.fst :=
    Slot.SameKeys.fill ⟨rfl, rfl, rfl⟩ _ _
  have hd' := hkeys ▸ hd
  refine (seen_agrees (.of_keys_eq hkeys)).bind fun found found' hf hf' hentries => ?_
  have hpair : ∀ {x y}, x ∈ found → y ∈ found' → x.1 = y.1 →
      x.2 = y.2 ∨ e.Gives r a t x.1 ∧ x.2 = .mapping xs ∧ y.2 = .mapping ys := by
    intro x y hx hy hk
    by_cases ht : e.Gives r a t x.1
    · exact .inr ⟨ht, eq_of_gives hd hf hx ht, eq_of_gives hd' hf' hy (hk ▸ ht)⟩
    · exact .inl (eq_of_not_gives hd hf hf' hx hy hk ht)
  refine settle_agrees hentries.keys_eq (fun hg => ?_) fun x y hgx hx hgy hy hk => ?_
  · have hreplaced : Entrywise (Replaced xs ys) found found' := by
      rw [Entrywise, List.forall₂_iff_zip] at hentries ⊢
      refine ⟨hentries.1, fun {x y} hxy => ?_⟩
      have hk := (hentries.2 hxy).1
      obtain ⟨hx, hy⟩ := List.of_mem_zip hxy
      exact ⟨hk, (hpair hx hy hk).imp_right And.right⟩
    refine reducePlain_agrees hreplaced fun before key after results hv hb hx hy => ?_
    obtain heq | ⟨ht, -, -⟩ := hpair hx hy rfl
    · exact .of_eq (congrArg _ heq)
    · have hagree := hvalue found before key after results hf hg hv hb ht
      rw [reduceFrom_value, reduceFrom_value] at hagree
      exact hagree
  · obtain heq | ⟨ht, hxs, hys⟩ := hpair (select_mem hx) (select_mem hy) hk
    · exact .of_eq (congrArg _ heq)
    · have hagree := hselected x ⟨found, hf, hgx, hx⟩ ht
      rw [reduceFrom_selected, reduceFrom_selected] at hagree
      rw [hxs, hys]
      exact hagree

/-- Mappings that agree wherever the run comes to them are interchangeable. -/
theorem reduceFrom_plug_agrees {c : List Slot} (hd : (Node.mapping (plug c xs)).DistinctKeys)
    (h : ∀ path b, e.ComesTo policy r a c xs path b →
      (e.reduceFrom policy r b xs).Agrees Eq (e.reduceFrom policy r b ys)) :
    (e.reduceFrom policy r a (plug c xs)).Agrees Eq (e.reduceFrom policy r a (plug c ys)) := by
  induction c generalizing a with
  | nil => exact h [] a (.here a xs)
  | cons t c ih =>
    have hd' := distinctKeys_of_fill hd
    refine reduceFrom_fill_agrees (nodup_of_distinctKeys hd)
      (fun found before key after results hf hg hv hb ht => ?_) fun x hc ht => ?_
    · exact ih hd' fun path b hcomes => h (key :: path) b (.value hf hg hv hb ht hcomes)
    · exact ih hd' fun path b hcomes => h path b (.selected hc ht hcomes)

/-- **Branches that are not selected do not matter.** If the first choice in a mapping, after its
keys have been expanded, falls on `k`, then exactly one entry supplies the value of `k`, and with
that entry in its place the other values may be changed at will: the reduction is the same run, with
the same result or failure and the same lookups. In a larger tree the runs agree as well, unless the
larger run comes to the mapping by selecting it and none of its keys is a guard as it is written. -/
theorem reduce_ignores_unselected {m : List (String × Node)} (hd : (m.map Prod.fst).Nodup)
    (hc : e.Chooses policy r .value m (k, v)) :
    ∃ s : Slot, (s.fill v = m ∧ e.Supplies r s k) ∧
      (∀ t w, t.fill w = m → e.Supplies r t k → t = s) ∧
      ∀ s' : Slot, s'.SameKeys s →
        e.reduce policy r (.mapping (s'.fill v)) = e.reduce policy r (.mapping m) ∧
        ∀ c : List Slot, (Node.mapping (plug c m)).DistinctKeys →
          (∀ path, e.ComesTo policy r .value c m path .selected →
            ∃ entry ∈ m, e.isGuard entry.1 = true) →
          (e.reduce policy r (.mapping (plug c m))).Agrees Eq
            (e.reduce policy r (.mapping (plug c (s'.fill v)))) := by
  obtain ⟨s, rfl, hs⟩ := hc.exists_gives hd
  refine ⟨s, ⟨rfl, hs⟩, fun t w ht hst => (hs.unique hd ht.symm hst).symm, fun s' hss => ?_⟩
  have heq := reduce_eq_of_chooses hd hc hs hss
  refine ⟨heq, fun c hdistinct hselected => ?_⟩
  rw [← reduceFrom_value, ← reduceFrom_value]
  refine reduceFrom_plug_agrees hdistinct fun path b hb => ?_
  cases b with
  | value =>
    rw [reduceFrom_value, reduceFrom_value]
    exact .of_eq heq.symm
  | selected =>
    rw [reduceFrom_selected, reduceFrom_selected]
    exact settle_agrees_of_chooses hd hc hs hss (hselected path hb)

/-- The guard that wins is an expanded key, which takes the place of an entry before it. -/
theorem reduce_ignores_unselected_renamed :
    (Node.mapping (plug [⟨[], "grid", []⟩]
      [("hot", .list []), ("$K", .null), ("cold", .null)])).DistinctKeys ∧
    (ofTable [("cold", .bool false), ("hot", .bool true)]).Chooses .last (some fun _ => some "hot") .value
      [("hot", .list []), ("$K", .null), ("cold", .null)] ("hot", .null) ∧
    ((ofTable [("cold", .bool false), ("hot", .bool true)]).reduce .last (some fun _ => some "hot")
      (.mapping (plug [⟨[], "grid", []⟩]
        [("hot", .list []), ("$K", .null), ("cold", .null)]))).Agrees Eq
      ((ofTable [("cold", .bool false), ("hot", .bool true)]).reduce .last
        (some fun _ => some "hot") (.mapping (plug [⟨[], "grid", []⟩]
          [("hot", .null), ("$K", .null), ("cold", .mapping [("$L", .null)])]))) := by
  have hdistinct : (Node.mapping (plug [⟨[], "grid", []⟩]
      [("hot", .list []), ("$K", .null), ("cold", .null)])).DistinctKeys := by
    refine .mapping (by simp [plug, Slot.fill]) fun entry hm => ?_
    obtain rfl := List.mem_singleton.1 hm
    refine .mapping (by simp [plug]) fun entry hm => ?_
    simp only [plug, List.mem_cons, List.not_mem_nil, or_false] at hm
    obtain rfl | rfl | rfl := hm
    · exact .list (by simp)
    · exact .scalar _
    · exact .scalar _
  have hc : (ofTable [("cold", .bool false), ("hot", .bool true)]).Chooses .last
      (some fun _ => some "hot") .value [("hot", .list []), ("$K", .null), ("cold", .null)]
      ("hot", .null) := by
    refine ⟨[("hot", .null), ("cold", .null)], ?_, by cbv, by cbv⟩
    rw [seen, expandKeys_eq]
    cbv
  have hsupplies : (ofTable [("cold", .bool false), ("hot", .bool true)]).Supplies
      (some fun _ => some "hot") ⟨[("hot", .list [])], "$K", [("cold", .null)]⟩ "hot" := by
    have hrenamed : (ofTable [("cold", .bool false), ("hot", .bool true)]).hasPlaceholder "$K" =
        true := by cbv
    refine ⟨by cbv, ?_⟩
    rw [if_pos hrenamed]
    intro k hk hp
    obtain rfl := List.mem_singleton.1 hk
    exact absurd hp (by cbv; decide)
  obtain ⟨s, -, hunique, hs⟩ :=
    reduce_ignores_unselected (nodup_of_distinctKeys (distinctKeys_of_fill hdistinct)) hc
  obtain rfl := hunique _ .null rfl hsupplies
  have hsame : Slot.SameKeys ⟨[("hot", .null)], "$K", [("cold", .mapping [("$L", .null)])]⟩
      ⟨[("hot", .list [])], "$K", [("cold", .null)]⟩ := ⟨rfl, rfl, rfl⟩
  refine ⟨hdistinct, hc, (hs _ hsame).2 [⟨[], "grid", []⟩] hdistinct fun _ _ => ?_⟩
  exact ⟨("hot", .list []), List.mem_cons_self, by cbv⟩

/-- If the mapping is itself what a guard selects, its keys are not expanded, and none of its values
is left out. -/
theorem reduce_of_selected_keeps_all :
    formulas.Chooses .last (some fun _ => some "else") .value
        (Slot.fill ⟨[("$A", .scalar (.string "y"))], "$B", []⟩ .null) ("else", .null) ∧
      formulas.Supplies (some fun _ => some "else")
        ⟨[("$A", .scalar (.string "y"))], "$B", []⟩ "else" ∧
      Slot.SameKeys ⟨[("$A", .scalar (.string "x"))], "$B", []⟩
        ⟨[("$A", .scalar (.string "y"))], "$B", []⟩ ∧
      (formulas.reduce .last (some fun _ => some "else") (.mapping (plug [⟨[], "else", []⟩]
        (Slot.fill ⟨[("$A", .scalar (.string "y"))], "$B", []⟩ .null)))).outcome =
        .ok (.mapping [("$A", .scalar (.string "y")), ("$B", .null)]) ∧
      (formulas.reduce .last (some fun _ => some "else") (.mapping (plug [⟨[], "else", []⟩]
        (Slot.fill ⟨[("$A", .scalar (.string "x"))], "$B", []⟩ .null)))).outcome =
        .ok (.mapping [("$A", .scalar (.string "x")), ("$B", .null)]) := by
  have ha : Formula.Cuts "$A".toList [.token (.var "A") ['$', 'A']] :=
    .token (t := ⟨.var "A", ['A'], []⟩) rfl rfl .nil
  have hb : Formula.Cuts "$B".toList [.token (.var "B") ['$', 'B']] :=
    .token (t := ⟨.var "B", ['B'], []⟩) rfl rfl .nil
  have hplain : ∀ value,
      (formulas.isGuarded [("$A", value), ("$B", .null)]).outcome = .ok false := by
    intro value
    refine isGuarded_ok_false_iff.2 fun entry hm => ?_
    simp only [List.mem_cons, List.not_mem_nil, or_false] at hm
    obtain rfl | rfl := hm
    · exact Formula.isGuard_of_parse (Formula.parse_of_makes ha (.var "A"))
    · exact Formula.isGuard_of_parse (Formula.parse_of_makes hb (.var "B"))
  have hresult : ∀ value, value.entries? = none →
      (expandValues (some fun _ => some "else") [("$A", value), ("$B", .null)]).outcome =
        .ok [("$A", value), ("$B", .null)] →
      (formulas.reduce .last (some fun _ => some "else")
        (.mapping [("else", .mapping [("$A", value), ("$B", .null)])])).outcome =
        .ok (.mapping [("$A", value), ("$B", .null)]) := by
    intro value hleaf hvalues
    refine reduce_otherwiseKey (by cbv) (hplain value) hvalues (reduceEntries_ok_iff.2 ?_)
    refine .cons ⟨rfl, ?_⟩ (.cons ⟨rfl, ?_⟩ .nil)
    · rw [reduce_of_entries?_eq_none hleaf]
      rfl
    · rw [reduce_of_entries?_eq_none rfl]
      rfl
  refine ⟨⟨[("else", .null)], ?_, by cbv, by cbv⟩, ⟨by cbv, ?_⟩, ⟨rfl, rfl, rfl⟩,
    hresult (.scalar (.string "y")) rfl (by cbv), hresult (.scalar (.string "x")) rfl (by cbv)⟩
  · rw [seen, expandKeys_eq]
    cbv
  · have hrenamed : formulas.hasPlaceholder "$B" = true := by cbv
    simp [hrenamed]

end Engine

end GuardTree
