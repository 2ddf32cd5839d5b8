import GuardTree.Proofs.Reduction.KeyExpansion

/-! # Which entry a guarded mapping is replaced by

A guard has a truth value, or is refused for one of three reasons (`holds_ok_iff`,
`holds_error_iff`). `select_ok_iff` describes the entry that wins by the keys alone. No guard with a
placeholder can be evaluated, so a mapping that can be decided as it stands has at most `else`
expanded, which stays what it is (`expandKeys_of_decided`). A plain mapping under `else` alone keeps
its keys (`reduce_otherwiseKey`).
-/

namespace GuardTree

set_option autoImplicit false

namespace Engine

variable {e : Engine} {policy : Policy} {r : Option Resolver} {entries : List (String × Node)}
  {entry : String × Node} {keys cs ds : List String}

/-! ## Truth values -/

/-- The truth value of a guard. It has one if no placeholder is left and its value is a boolean. -/
def truth? (e : Engine) (key : String) : Option Bool :=
  if e.hasPlaceholder key then none
  else match e.evaluate key with
    | .ok value => value.bool?
    | .error _ => none

/-- Why a guard has no truth value. -/
inductive Refuses (e : Engine) (key : String) : Failure → Prop
  | placeholder (h : e.hasPlaceholder key = true) : e.Refuses key (.unresolvedGuardVariable key)
  | evaluation {err : Formula.Error} (h : e.hasPlaceholder key = false)
      (he : e.evaluate key = .error err) : e.Refuses key (.formula key err)
  | value {v : Formula.Value} (h : e.hasPlaceholder key = false) (he : e.evaluate key = .ok v)
      (hb : v.bool? = none) : e.Refuses key (.nonBooleanGuard key v)

theorem holds_ok_iff {key : String} {b : Bool} :
    (e.holds key).outcome = .ok b ↔ e.truth? key = some b := by
  unfold holds truth?
  split
  · simp [Traced.fail]
  · split
    · rename_i herr
      simp [Traced.fail, herr]
    · rename_i v hv
      simp only [hv]
      split
      · rename_i hb
        rw [Traced.pure_outcome_eq_ok, hb, Option.some_inj, eq_comm]
      · rename_i hb
        simp [Traced.fail, hb]

theorem holds_error_iff {key : String} {f : Failure} :
    (e.holds key).outcome = .error f ↔ e.Refuses key f := by
  constructor
  · intro h
    unfold holds at h
    split at h
    case isTrue hp =>
      cases h
      exact .placeholder hp
    case isFalse hp =>
      rw [Bool.not_eq_true] at hp
      split at h
      case h_1 he =>
        cases h
        exact .evaluation hp he
      case h_2 he =>
        split at h <;> cases h
        case h_2 hb => exact .value hp he hb
  · intro h
    cases h with
    | placeholder hp =>
      rw [holds, if_pos hp]
      rfl
    | evaluation hp he =>
      rw [holds, hp, he]
      rfl
    | value hp he hb =>
      rw [holds, hp, he]
      simp [hb, Traced.fail]

/-! ## Guards that are true -/

/-- Whether a key takes part in the choice; one that cannot be evaluated does not. -/
def satisfied (e : Engine) (key : String) : Bool :=
  match (e.takesPart key).outcome with
  | .ok b => b
  | .error _ => false

/-- The guards among the keys can all be evaluated. -/
def Decided (e : Engine) (keys : List String) : Prop :=
  ∀ key ∈ keys, (e.takesPart key).outcome = .ok (e.satisfied key)

theorem takesPart_ok {key : String} {b : Bool} (h : (e.takesPart key).outcome = .ok b) :
    (e.takesPart key).outcome = .ok (e.satisfied key) := by
  rw [satisfied, h]

theorem candidates_ok_iff :
    (e.candidates keys).outcome = .ok cs ↔ e.Decided keys ∧ cs = keys.filter e.satisfied := by
  induction keys generalizing cs with
  | nil =>
    rw [candidates, Traced.pure_outcome_eq_ok]
    simp [Decided]
  | cons key keys ih =>
    rw [candidates, Traced.bind_outcome_eq_ok, List.filter_cons, Decided, List.forall_mem_cons]
    constructor
    · rintro ⟨b, hb, h⟩
      obtain ⟨others, ho, h⟩ := Traced.bind_outcome_eq_ok.1 h
      obtain ⟨hdecided, rfl⟩ := ih.1 ho
      have hsat := takesPart_ok hb
      obtain rfl : b = e.satisfied key := Except.ok.inj (hb.symm.trans hsat)
      exact ⟨⟨hsat, hdecided⟩, Traced.pure_outcome_eq_ok.1 h⟩
    · rintro ⟨⟨hsat, hdecided⟩, rfl⟩
      refine ⟨_, hsat, Traced.bind_outcome_eq_ok.2 ⟨_, ih.2 ⟨hdecided, rfl⟩, ?_⟩⟩
      exact Traced.pure_outcome_eq_ok.2 rfl

theorem select_ok_iff :
    (e.select policy entries).outcome = .ok entry ↔
      e.Decided (entries.map Prod.fst) ∧
        policy.pick (preferred ((entries.map Prod.fst).filter e.satisfied)) = some entry.1 ∧
        entries.lookup entry.1 = some entry.2 := by
  constructor
  · intro h
    have hlookup := lookup_of_select h
    rw [select, Traced.bind_outcome_eq_ok] at h
    obtain ⟨cs, hcs, h⟩ := h
    obtain ⟨hdecided, rfl⟩ := candidates_ok_iff.1 hcs
    refine ⟨hdecided, ?_, hlookup⟩
    dsimp only at h
    split at h
    case h_1 => cases h
    case h_2 key hp =>
      obtain ⟨_, _, h⟩ := Traced.bind_outcome_eq_ok.1 h
      rw [Traced.pure_outcome_eq_ok.1 h]
      exact hp
  · rintro ⟨hdecided, hp, hlookup⟩
    rw [select, Traced.bind_outcome_eq_ok]
    refine ⟨_, candidates_ok_iff.2 ⟨hdecided, rfl⟩, ?_⟩
    dsimp only
    rw [hp]
    dsimp only
    rw [hlookup]
    rfl

theorem isGuarded_ok_true_iff :
    (e.isGuarded entries).outcome = .ok true ↔
      entries ≠ [] ∧ ∀ x ∈ entries, e.isGuard x.1 = true := by
  have hnone : ((entries.map Prod.fst).map e.isGuard).all (!·) = true ↔
      ∀ x ∈ entries, e.isGuard x.1 = false := by
    simp [List.all_eq_true]
  have hall : ((entries.map Prod.fst).map e.isGuard).all id = true ↔
      ∀ x ∈ entries, e.isGuard x.1 = true := by
    simp [List.all_eq_true]
  rw [isGuarded, Traced.bind_ok (mapM_check_outcome _)]
  dsimp only
  split
  case isTrue h =>
    rw [hnone] at h
    constructor
    · intro hfalse
      cases hfalse
    · rintro ⟨hne, hguard⟩
      obtain ⟨x, hx⟩ := List.exists_mem_of_ne_nil _ hne
      exact absurd ((h x hx).symm.trans (hguard x hx)) (by decide)
  case isFalse h =>
    have hne : entries ≠ [] := by
      rintro rfl
      exact h rfl
    split
    case isTrue hguard => exact ⟨fun _ => ⟨hne, hall.1 hguard⟩, fun _ => rfl⟩
    case isFalse hmixed =>
      constructor
      · intro hfail
        cases hfail
      · rintro ⟨-, hguard⟩
        exact absurd (hall.2 hguard) hmixed

/-! ## Guards before and after the expansion of the keys -/

/-- Whether `else` stands before or after the others makes no difference. -/
theorem preferred_congr (hp : cs.Perm ds)
    (hf : (cs.filter fun key => key ≠ otherwiseKey) = ds.filter fun key => key ≠ otherwiseKey) :
    preferred cs = preferred ds := by
  unfold preferred
  rw [hp.length_eq]
  split
  case isTrue => exact hf
  case isFalse hlen =>
    cases ds with
    | nil => exact hp.eq_nil
    | cons d ds =>
      cases ds with
      | nil => exact List.perm_singleton.1 hp
      | cons => exact absurd (by simp) hlen

theorem expand_otherwiseKey :
    (Placeholder.expand r otherwiseKey).outcome = .ok otherwiseKey := by
  have hall : Placeholder.all otherwiseKey = [] := by cbv
  have hpieces : Placeholder.pieces otherwiseKey.toList =
      [.literal 'e', .literal 'l', .literal 's', .literal 'e'] := by cbv
  rw [Placeholder.expand, hall, hpieces]
  rfl

theorem eq_otherwiseKey_of_decided (h : e.Decided keys) {key : String} (hk : key ∈ keys)
    (hp : e.hasPlaceholder key = true) : key = otherwiseKey := by
  by_contra hne
  have htakes := h key hk
  rw [takesPart, if_neg hne, holds, if_pos hp] at htakes
  cases htakes

theorem expandKeys_of_decided (hd : (entries.map Prod.fst).Nodup)
    (h : e.Decided (entries.map Prod.fst)) :
    (e.expandKeys r entries).outcome = .ok ((entries.filter fun x => !e.hasPlaceholder x.1) ++
      entries.filter fun x => e.hasPlaceholder x.1) := by
  have hperm := List.filter_append_perm (fun x => !e.hasPlaceholder x.1) entries
  simp only [Bool.not_not] at hperm
  refine (expandKeys_ok_iff hd).2 ⟨_, List.forall₂_same.2 fun x hx => ?_, ?_⟩
  · obtain ⟨hm, hp⟩ := List.mem_filter.1 hx
    rw [Renames, eq_otherwiseKey_of_decided h (List.mem_map_of_mem hm) hp]
    exact ⟨expand_otherwiseKey, rfl⟩
  · rw [EntryList.insertAll_of_nodup ((hperm.map Prod.fst).nodup_iff.2 hd)]

/-- Without `else`, the expanded keys stand in the order they had. -/
theorem filter_ne_otherwiseKey_of_decided (h : e.Decided keys) :
    ((keys.filter fun key => !e.hasPlaceholder key) ++
      keys.filter e.hasPlaceholder).filter (fun key => key ≠ otherwiseKey) =
      keys.filter fun key => key ≠ otherwiseKey := by
  have hlast : ((keys.filter e.hasPlaceholder).filter fun key => key ≠ otherwiseKey) = [] := by
    rw [List.filter_eq_nil_iff]
    intro key hk
    obtain ⟨hm, hp⟩ := List.mem_filter.1 hk
    simp [eq_otherwiseKey_of_decided h hm hp]
  have hkept : ((keys.filter fun key => !e.hasPlaceholder key).filter fun key =>
      key ≠ otherwiseKey) = keys.filter fun key => key ≠ otherwiseKey := by
    rw [List.filter_filter]
    refine List.filter_congr fun key hk => ?_
    cases hp : e.hasPlaceholder key with
    | true => simp [eq_otherwiseKey_of_decided h hk hp]
    | false => simp
  rw [List.filter_append, hkept, hlast, List.append_nil]

/-! ## `else` alone -/

theorem takesPart_otherwiseKey : (e.takesPart otherwiseKey).outcome = .ok true := by
  rw [takesPart, if_pos rfl]
  rfl

theorem satisfied_otherwiseKey : e.satisfied otherwiseKey = true := by
  rw [satisfied, takesPart_otherwiseKey]

theorem decided_otherwiseKey : e.Decided [otherwiseKey] := by
  intro key hk
  obtain rfl := List.mem_singleton.1 hk
  exact takesPart_ok takesPart_otherwiseKey

theorem select_otherwiseKey (value : Node) :
    (e.select policy [(otherwiseKey, value)]).outcome = .ok (otherwiseKey, value) := by
  refine select_ok_iff.2 ⟨decided_otherwiseKey, ?_, List.lookup_cons_self⟩
  rw [List.map_singleton, List.filter_cons, if_pos satisfied_otherwiseKey]
  cases policy <;> rfl

/-- A plain mapping under `else` alone is taken with its keys as they are written. -/
theorem reduce_otherwiseKey (he : e.isGuard otherwiseKey = true) {values results : List (String × Node)}
    (hp : (e.isGuarded entries).outcome = .ok false)
    (hv : (expandValues r entries).outcome = .ok values)
    (hr : (e.reduceEntries policy r values).outcome = .ok results) :
    (e.reduce policy r (.mapping [(otherwiseKey, .mapping entries)])).outcome =
      .ok (.mapping results) := by
  have hexpand : (e.expandKeys r [(otherwiseKey, .mapping entries)]).outcome =
      .ok [(otherwiseKey, .mapping entries)] := by
    have hd : ([(otherwiseKey, Node.mapping entries)].map Prod.fst).Nodup := List.nodup_singleton _
    rw [expandKeys_of_decided hd decided_otherwiseKey]
    cases h : e.hasPlaceholder otherwiseKey <;> simp [h]
  have hg : (e.isGuarded [(otherwiseKey, .mapping entries)]).outcome = .ok true := by
    refine isGuarded_ok_true_iff.2 ⟨List.cons_ne_nil _ _, fun x hx => ?_⟩
    obtain rfl := List.mem_singleton.1 hx
    exact he
  have hcollapse : (e.collapse policy [(otherwiseKey, .mapping entries)]).outcome =
      .ok (.mapping entries) := by
    refine collapse_ok_iff.2 (.inr ⟨_, hg, select_otherwiseKey _, .inl ⟨entries, rfl, ?_⟩⟩)
    exact collapse_ok_iff.2 (.inl ⟨hp, rfl⟩)
  exact reduce_mapping_ok_iff.2 ⟨_, hexpand, .inr ⟨_, _, _, hcollapse, hv, hr, rfl⟩⟩

end Engine

end GuardTree
