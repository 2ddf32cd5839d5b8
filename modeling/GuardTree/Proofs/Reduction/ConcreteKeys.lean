import GuardTree.Proofs.Formula.GuardShape
import GuardTree.Proofs.Placeholder.Occurrence
import GuardTree.Proofs.Reduction.Arrival
import GuardTree.Proofs.Reduction.OneShot

/-! # Keys of a reduced tree

Wherever a mapping stands in the result, the reduction has put just one there (`Puts.unique`). Its
keys have been expanded, so they have no placeholders, unless a guard has selected it: then they are
the keys as they were written (`reduce_expands_keys`).
-/

namespace GuardTree

set_option autoImplicit false

namespace Node

/-! ## Places -/

/-- `n.At path m`: the keys of `path`, taken one after the other, lead from `n` to `m`. -/
inductive At : Node → List String → Node → Prop
  | here (n : Node) : At n [] n
  | under {entries : List (String × Node)} {entry : String × Node} {path : List String} {m : Node}
      (he : entry ∈ entries) (h : At entry.2 path m) : At (.mapping entries) (entry.1 :: path) m

theorem reaches_iff_exists_at {n m : Node} : n.Reaches m ↔ ∃ path, n.At path m := by
  constructor
  · intro h
    induction h with
    | refl n => exact ⟨[], .here n⟩
    | under he _ ih =>
      obtain ⟨path, h⟩ := ih
      exact ⟨_, .under he h⟩
  · rintro ⟨path, h⟩
    induction h with
    | here n => exact .refl n
    | under he _ ih => exact .under he ih

theorem At.mapping_of_entries?_eq_none {n : Node} {path : List String}
    {entries : List (String × Node)} (hn : n.entries? = none) : ¬ n.At path (.mapping entries) :=
  fun h => Reaches.mapping_of_entries?_eq_none hn (reaches_iff_exists_at.2 ⟨path, h⟩)

/-! ## Keys that can be expanded -/

/-- Every `$` in a key that stands under keys alone starts a placeholder. -/
def TidyKeys (n : Node) : Prop :=
  ∀ entries, n.Reaches (.mapping entries) → ∀ entry ∈ entries, Placeholder.Tidy entry.1

theorem tidyKeys_of_entries?_eq_none {n : Node} (hn : n.entries? = none) : n.TidyKeys :=
  fun _ h => absurd h (Reaches.mapping_of_entries?_eq_none hn)

theorem tidyKeys_mapping {entries : List (String × Node)}
    (h : ∀ entry ∈ entries, Placeholder.Tidy entry.1 ∧ entry.2.TidyKeys) :
    (mapping entries).TidyKeys := by
  intro found hr
  cases hr with
  | refl => exact fun entry he => (h entry he).1
  | under he hr => exact (h _ he).2 found hr

theorem TidyKeys.of_reaches {n m : Node} (h : n.TidyKeys) (hm : n.Reaches m) : m.TidyKeys :=
  fun entries hr => h entries (hm.trans hr)

theorem reaches_plug (c : List Slot) (m : List (String × Node)) :
    (mapping (plug c m)).Reaches (.mapping m) := by
  induction c with
  | nil => exact .refl _
  | cons t c ih => exact .under (List.mem_append_right _ List.mem_cons_self) ih

end Node

/-- No key has a placeholder. -/
def Concrete (entries : List (String × Node)) : Prop :=
  ∀ entry ∈ entries, Placeholder.occursIn entry.1 = false

theorem Concrete.of_keys_eq {xs ys : List (String × Node)} (h : Concrete xs)
    (hk : ys.map Prod.fst = xs.map Prod.fst) : Concrete ys := by
  intro y hy
  have hm : y.1 ∈ xs.map Prod.fst := hk ▸ List.mem_map_of_mem hy
  obtain ⟨x, hx, hxy⟩ := List.mem_map.1 hm
  exact hxy ▸ h x hx

namespace Engine

variable {e : Engine} {policy : Policy} {r : Option Resolver} {q : Resolver}
  {entries found plain left : List (String × Node)} {n : Node} {path : List String}
  {a b : Arrival}

/-! ## The way to what is left -/

/-- What guards leave of a mapping is the mapping itself as it is seen, or one that the reduction
comes to by selecting it. -/
theorem comesTo_of_collapse (hd : (Node.mapping entries).DistinctKeys)
    (hf : (e.seen r a entries).outcome = .ok found)
    (hc : (e.collapse policy found).outcome = .ok (.mapping plain)) :
    ∃ c m b, entries = plug c m ∧ e.ComesTo policy r a c m [] b ∧ e.Stays r b m plain ∧
      (b = a ∨ b = .selected) := by
  induction hk : Node.countEntries found using Nat.strongRecOn generalizing entries found a with
  | _ k ih =>
    obtain ⟨hg, hn⟩ | ⟨entry, hg, hs, ⟨inner, hv, hinner⟩ | ⟨hn, hv⟩⟩ := collapse_ok_iff.1 hc
    · cases hn
      exact ⟨[], entries, a, rfl, .here a entries, ⟨hf, hg⟩, .inl rfl⟩
    · obtain ⟨key, value⟩ := entry
      obtain rfl : value = .mapping inner := hv
      obtain ⟨t, rfl, ht⟩ := exists_gives (nodup_of_distinctKeys hd) hf (select_mem hs)
      have hle := Node.count_le_countEntries (select_mem hs)
      rw [Node.count] at hle
      have hselected : (e.seen r .selected inner).outcome = .ok inner := rfl
      obtain ⟨c, m, b, rfl, hcomes, hstays, hb⟩ :=
        ih (Node.countEntries inner) (by omega) (distinctKeys_of_fill hd) hselected hinner rfl
      obtain rfl : b = .selected := hb.elim id id
      exact ⟨t :: c, m, .selected, rfl, .selected ⟨found, hf, hg, hs⟩ ht hcomes, hstays, .inr rfl⟩
    · rw [← hv] at hn
      cases hn

/-- `e.Puts policy r n path a plain`: at `path` in the result the reduction of `n` puts the mapping
`plain`, its values still to be reduced. It is a mapping of `n` that the reduction comes to with the
arrival `a`, with its keys expanded if `a` is `value`, and as it is written if a guard has selected
it. -/
def Puts (e : Engine) (policy : Policy) (r : Option Resolver) (n : Node) (path : List String)
    (a : Arrival) (plain : List (String × Node)) : Prop :=
  ∃ c m, n = .mapping (plug c m) ∧ e.ComesTo policy r .value c m path a ∧ e.Stays r a m plain

/-- Just one mapping is put at a place. -/
theorem Puts.unique (h : e.Puts policy r n path a plain) (hd : n.DistinctKeys)
    (h' : e.Puts policy r n path b left) : b = a ∧ left = plain := by
  obtain ⟨c, m, rfl, hcomes, hstays⟩ := h
  obtain ⟨c', m', heq, hcomes', hstays'⟩ := h'
  exact hcomes.stays_unique hcomes' hd (Node.mapping.inj heq) hstays hstays'

/-- What a guard has selected is put as it stands in the tree. -/
theorem Puts.as_written (h : e.Puts policy r n path .selected plain) :
    ∃ c, n = .mapping (plug c plain) := by
  obtain ⟨c, m, rfl, -, hstays⟩ := h
  obtain rfl : m = plain := Except.ok.inj hstays.seen
  exact ⟨c, rfl⟩

/-- What the reduction of a value puts is put in the tree as well, one key further down. -/
theorem Puts.under {c : List Slot} {m before after results : List (String × Node)} {key : String}
    {value : Node} (h : e.Puts policy r value path a left)
    (hcomes : e.ComesTo policy r .value c m [] b) (hstays : e.Stays r b m plain)
    (hd : (m.map Prod.fst).Nodup)
    (hv : (expandValues r plain).outcome = .ok (before ++ (key, value) :: after))
    (hb : (e.reduceEntries policy r before).outcome = .ok results)
    (hm : (key, value) ∈ plain) :
    e.Puts policy r (.mapping (plug c m)) (key :: path) a left := by
  obtain ⟨t, rfl, hgives⟩ := exists_gives hd hstays.seen hm
  obtain ⟨d, k, rfl, hinner, hleft⟩ := h
  refine ⟨c ++ t :: d, k, by rw [plug_append]; rfl, ?_, hleft⟩
  exact hcomes.trans rfl (.value hstays.seen hstays.plain hv hb hgives hinner)

/-! ## Keys that have been expanded -/

theorem concrete_of_expandKeys (he : e.hasPlaceholder = Placeholder.occursIn)
    (hq : Placeholder.DollarFree q) (hd : (entries.map Prod.fst).Nodup)
    (ht : ∀ entry ∈ entries, Placeholder.Tidy entry.1)
    (hx : (e.expandKeys (some q) entries).outcome = .ok found) : Concrete found := by
  intro x hm
  obtain ⟨y, hy, -, hnew⟩ := mem_expandKeys hd hx hm
  cases hp : e.hasPlaceholder y.1 with
  | true =>
    exact Placeholder.not_occursIn_of_expand hq (ht y hy) ((newKey?_eq_some_iff hp).1 hnew)
  | false =>
    rw [newKey?_of_not_hasPlaceholder hp] at hnew
    rw [← Option.some.inj hnew, ← he]
    exact hp

/-- The keys that are left are those of what the reduction has put there, and they are expanded
unless a guard has selected it. -/
theorem reduce_expands_keys (he : e.hasPlaceholder = Placeholder.occursIn)
    (hq : Placeholder.DollarFree q) {n' : Node}
    (h : (e.reduce policy (some q) n).outcome = .ok n') :
    n.DistinctKeys → n.TidyKeys → ∀ path entries, n'.At path (.mapping entries) →
      ∃ a plain, e.Puts policy (some q) n path a plain ∧
        entries.map Prod.fst = plain.map Prod.fst ∧ (Concrete entries ∨ a = .selected) := by
  refine reduce_ok_induction (motive := fun n n' => n.DistinctKeys → n.TidyKeys → ∀ path entries,
    n'.At path (.mapping entries) → ∃ a plain, e.Puts policy (some q) n path a plain ∧
      entries.map Prod.fst = plain.map Prod.fst ∧ (Concrete entries ∨ a = .selected))
    (fun _ hn _ _ _ _ hr => absurd hr (Node.At.mapping_of_entries?_eq_none hn))
    (fun _ _ _ _ _ hn _ _ _ _ hr => absurd hr (Node.At.mapping_of_entries?_eq_none hn)) ?_ h
  intro origin expanded plain values results hx hc hv hr hvalues hd ht path entries hat
  obtain ⟨c, m, b, rfl, hcomes, hstays, -⟩ := comesTo_of_collapse (a := .value) hd hx hc
  have hdm := distinctKeys_of_plug hd
  have htm := ht.of_reaches (Node.reaches_plug c m)
  cases hat with
  | here =>
    have hkeys := (keys_reduceEntries hr).trans (keys_expandValues hv)
    refine ⟨b, plain, ⟨c, m, rfl, hcomes, hstays⟩, hkeys, ?_⟩
    cases b with
    | value =>
      have hplain := concrete_of_expandKeys he hq (nodup_of_distinctKeys hdm) (htm _ (.refl _))
        hstays.seen
      exact .inl (hplain.of_keys_eq hkeys)
    | selected => exact .inr rfl
  | @under _ y path _ hy hat =>
    obtain ⟨before, x, after, results', rfl, hbefore, ⟨hkey, -⟩, hchild⟩ :=
      Traced.exists_split_of_forall₂ (reduceEntries_ok_iff.1 hr) hvalues hy
    have hxv : x ∈ before ++ x :: after := List.mem_append_right _ List.mem_cons_self
    obtain hxp | ⟨leaf, hleaf⟩ := mem_expandValues hv hxv
    · obtain ⟨key, hxm⟩ := exists_mem_of_seen (nodup_of_distinctKeys hdm) hstays.seen hxp
      have hdx : x.2.DistinctKeys := by
        cases hdm with
        | mapping _ hvalues => exact hvalues (key, x.2) hxm
      obtain ⟨a, left, hputs, hkeys, hconcrete⟩ :=
        hchild hdx (htm.of_reaches (.under hxm (.refl _))) path entries hat
      refine ⟨a, left, ?_, hkeys, hconcrete⟩
      rw [hkey]
      exact hputs.under hcomes hstays (nodup_of_distinctKeys hdm) hv
        (reduceEntries_ok_iff.2 hbefore) hxp
    · -- A value that has been expanded is no mapping, and nothing stands under it.
      rw [hleaf] at hchild
      have htidy := Node.tidyKeys_of_entries?_eq_none (n := .scalar leaf) rfl
      obtain ⟨_, _, ⟨_, _, hnone, -⟩, -⟩ := hchild (.scalar leaf) htidy path entries hat
      cases hnone

end Engine

namespace Session

open Engine

/-- **A reduced session has concrete keys, but for those of selected branches.** Let every `$` in the
keys start a placeholder, and the values of the resolver have no `$`. Wherever a mapping stands under
keys alone in the result, the reduction has put just one mapping there, and its keys are left. None of
them has a placeholder, unless the mapping at this very place is one that a guard has selected: then
they are its keys as they were written. -/
theorem reduce_leaves_concrete_keys {e : Engine} {policy : Policy} {t : Node} {q : Resolver}
    {s s' : Session} {path : List String} {entries : List (String × Node)}
    (he : e.hasPlaceholder = Placeholder.occursIn) (hq : Placeholder.DollarFree q)
    (hd : t.DistinctKeys) (ht : t.TidyKeys) (hs : start e policy t = .ok s)
    (h : (s.reduce (some q)).outcome = .ok s') (hm : s'.data.At path (.mapping entries)) :
    ∃ a plain, e.Puts policy (some q) t path a plain ∧
      (∀ b other, e.Puts policy (some q) t path b other → b = a ∧ other = plain) ∧
      entries.map Prod.fst = plain.map Prod.fst ∧
      (Concrete entries ∨ a = .selected ∧ ∃ c, t = .mapping (plug c plain)) := by
  obtain ⟨a, plain, hputs, hkeys, hconcrete⟩ :=
    reduce_expands_keys he hq (reduce_ok hs h) hd ht path entries hm
  refine ⟨a, plain, hputs, fun _ _ => hputs.unique hd, hkeys, hconcrete.imp_right ?_⟩
  rintro rfl
  exact ⟨rfl, hputs.as_written⟩

/-- A key of the tree and one of a value in it are expanded. -/
theorem reduce_leaves_concrete_keys_nested :
    start (ofTable []) .last (.mapping [("$K", .mapping [("$L", .null)])]) =
        .ok ⟨ofTable [], .last, .mapping [("$K", .mapping [("$L", .null)])], .unreduced⟩ ∧
      (reduce ⟨ofTable [], .last, .mapping [("$K", .mapping [("$L", .null)])], .unreduced⟩
        (some fun _ => some "a")).outcome =
        .ok ⟨ofTable [], .last, .mapping [("a", .mapping [("a", .null)])], .reduced⟩ ∧
      ∃ a plain, (ofTable []).Puts .last (some fun _ => some "a")
          (.mapping [("$K", .mapping [("$L", .null)])]) ["a"] a plain ∧
        (∀ b other, (ofTable []).Puts .last (some fun _ => some "a")
          (.mapping [("$K", .mapping [("$L", .null)])]) ["a"] b other → b = a ∧ other = plain) ∧
        [("a", Node.null)].map Prod.fst = plain.map Prod.fst ∧
        (Concrete [("a", .null)] ∨ a = .selected ∧
          ∃ c, .mapping [("$K", .mapping [("$L", .null)])] = Node.mapping (plug c plain)) := by
  have hplain : ∀ value, ((ofTable []).collapse .last [("a", value)]).outcome =
      .ok (.mapping [("a", value)]) :=
    fun value => collapse_ok_iff.2 (.inl ⟨by cbv, rfl⟩)
  have hinner : ((ofTable []).reduce .last (some fun _ => some "a")
      (.mapping [("$L", .null)])).outcome = .ok (.mapping [("a", .null)]) := by
    refine reduce_mapping_ok_iff.2 ⟨[("a", .null)], ?_, .inr ⟨_, _, _, hplain .null, rfl, ?_, rfl⟩⟩
    · rw [expandKeys_eq]
      cbv
    · refine reduceEntries_ok_iff.2 (.cons ⟨rfl, ?_⟩ .nil)
      rw [reduce_of_entries?_eq_none rfl]
      rfl
  have houter : ((ofTable []).reduce .last (some fun _ => some "a")
      (.mapping [("$K", .mapping [("$L", .null)])])).outcome =
      .ok (.mapping [("a", .mapping [("a", .null)])]) := by
    refine reduce_mapping_ok_iff.2 ⟨[("a", .mapping [("$L", .null)])], ?_,
      .inr ⟨_, _, _, hplain _, rfl, ?_, rfl⟩⟩
    · rw [expandKeys_eq]
      cbv
    · exact reduceEntries_ok_iff.2 (.cons ⟨rfl, hinner⟩ .nil)
  have hreduce : (reduce ⟨ofTable [], .last, .mapping [("$K", .mapping [("$L", .null)])],
      .unreduced⟩ (some fun _ => some "a")).outcome =
      .ok ⟨ofTable [], .last, .mapping [("a", .mapping [("a", .null)])], .reduced⟩ := by
    rw [reduce_of_unreduced rfl rfl (by simp)]
    dsimp only
    rw [houter]
    rfl
  have hdollar : Placeholder.DollarFree fun _ => some "a" := by
    intro name v hv
    cases hv
    decide
  have hdistinct : (Node.mapping [("$K", .mapping [("$L", .null)])]).DistinctKeys := by
    refine .mapping (List.nodup_singleton _) fun entry hm => ?_
    obtain rfl := List.mem_singleton.1 hm
    refine .mapping (List.nodup_singleton _) fun entry hm => ?_
    obtain rfl := List.mem_singleton.1 hm
    exact .scalar _
  have htidy : (Node.mapping [("$K", .mapping [("$L", .null)])]).TidyKeys := by
    refine Node.tidyKeys_mapping fun entry hm => ?_
    obtain rfl := List.mem_singleton.1 hm
    refine ⟨Placeholder.tidy_of_cut? rfl rfl, Node.tidyKeys_mapping fun entry hm => ?_⟩
    obtain rfl := List.mem_singleton.1 hm
    exact ⟨Placeholder.tidy_of_cut? rfl rfl, Node.tidyKeys_of_entries?_eq_none rfl⟩
  refine ⟨rfl, hreduce, ?_⟩
  exact reduce_leaves_concrete_keys rfl hdollar hdistinct htidy rfl hreduce
    (.under List.mem_cons_self (.here _))

/-- The keys of a selected branch are left as they are. -/
theorem reduce_keeps_selected_keys :
    start formulas .last (.mapping [("else", .mapping [("$K", .null)])]) =
        .ok ⟨formulas, .last, .mapping [("else", .mapping [("$K", .null)])], .unreduced⟩ ∧
      (reduce ⟨formulas, .last, .mapping [("else", .mapping [("$K", .null)])], .unreduced⟩
        (some fun _ => some "x")).outcome =
        .ok ⟨formulas, .last, .mapping [("$K", .null)], .reduced⟩ ∧
      Placeholder.occursIn "$K" = true ∧ Placeholder.Tidy "else" ∧ Placeholder.Tidy "$K" ∧
      Placeholder.DollarFree fun _ => some "x" := by
  have hs : Formula.Cuts "$K".toList [.token (.var "K") ['$', 'K']] :=
    .token (t := ⟨.var "K", ['K'], []⟩) rfl rfl .nil
  have hplain : (formulas.isGuarded [("$K", .null)]).outcome = .ok false := by
    refine isGuarded_ok_false_iff.2 fun entry hm => ?_
    obtain rfl := List.mem_singleton.1 hm
    exact Formula.isGuard_of_parse (Formula.parse_of_makes hs (.var "K"))
  have hresult : (formulas.reduce .last (some fun _ => some "x")
      (.mapping [("else", .mapping [("$K", .null)])])).outcome = .ok (.mapping [("$K", .null)]) := by
    refine reduce_otherwiseKey (by cbv) hplain rfl (reduceEntries_ok_iff.2 (.cons ⟨rfl, ?_⟩ .nil))
    rw [reduce_of_entries?_eq_none rfl]
    rfl
  refine ⟨rfl, ?_, by cbv, ?_, ?_, ?_⟩
  · rw [reduce_of_unreduced rfl rfl (by simp)]
    dsimp only
    rw [hresult]
    rfl
  · exact Placeholder.tidy_of_not_mem (by decide)
  · exact Placeholder.tidy_of_cut? rfl rfl
  · intro name v hv
    cases hv
    decide

end Session

end GuardTree
