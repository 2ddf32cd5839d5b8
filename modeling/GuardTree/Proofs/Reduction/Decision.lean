import GuardTree.Proofs.Reduction.Choice

/-! # What a choice among guards comes to

Every key of a mapping but `else` is evaluated, in order, and the first one without a truth value is
what the choice fails for, whatever is true before it. If all have one, the policy picks among the
true ones, and `else` wins where there is none: `select_follows_policy`.
-/

namespace GuardTree

set_option autoImplicit false

namespace Engine

variable {e : Engine} {policy : Policy} {key : String} {f : Failure} {m : OrderedMap Node}

/-! ## The guards of a mapping -/

/-- The keys that are evaluated, in order. -/
def guardKeys (m : OrderedMap Node) : List String := m.keys.filter fun key => key ≠ otherwiseKey

/-- The first guard of a mapping that has no truth value. -/
def firstRefused? (e : Engine) (m : OrderedMap Node) : Option String :=
  (guardKeys m).find? fun key => (e.truth? key).isNone

/-- The guards of a mapping that are true, in order. -/
def trueKeys (e : Engine) (m : OrderedMap Node) : List String :=
  (guardKeys m).filter fun key => e.truth? key = some true

theorem exists_refuses (h : e.truth? key = none) : ∃ f, e.Refuses key f := by
  obtain ⟨b, hb⟩ | ⟨f, hf⟩ := (e.holds key).ok_or_error
  · rw [holds_ok_iff.1 hb] at h
    cases h
  · exact ⟨f, holds_error_iff.1 hf⟩

theorem takesPart_of_ne (hne : key ≠ otherwiseKey) : e.takesPart key = e.holds key :=
  if_neg hne

theorem satisfied_of_ne (hne : key ≠ otherwiseKey) :
    e.satisfied key = decide (e.truth? key = some true) := by
  rw [satisfied, takesPart_of_ne hne]
  split
  case h_1 b hb =>
    rw [holds_ok_iff.1 hb]
    cases b <;> rfl
  case h_2 f hf =>
    have hnone : e.truth? key ≠ some true := by
      intro htrue
      rw [holds_ok_iff.2 htrue] at hf
      cases hf
    simp [hnone]

/-! ## A guard that is refused -/

theorem candidates_of_refused {keys : List String}
    (hk : keys.find? (fun k => k ≠ otherwiseKey ∧ (e.truth? k).isNone) = some key)
    (hf : e.Refuses key f) : (e.candidates keys).outcome = .error f := by
  induction keys with
  | nil => cases hk
  | cons k keys ih =>
    rw [candidates]
    rw [List.find?_cons] at hk
    split at hk
    case h_1 h =>
      obtain rfl := Option.some.inj hk
      rw [decide_eq_true_eq] at h
      rw [takesPart_of_ne h.1, Traced.bind_error (holds_error_iff.2 hf)]
    case h_2 h =>
      -- The first key has a truth value, or is `else`.
      have hb : ∃ b, (e.takesPart k).outcome = .ok b := by
        by_cases hne : k = otherwiseKey
        · exact ⟨true, by rw [hne]; exact takesPart_otherwiseKey⟩
        · rw [decide_eq_false_iff_not, not_and, Option.isNone_iff_eq_none] at h
          obtain ⟨b, hb⟩ := Option.ne_none_iff_exists'.1 (h hne)
          exact ⟨b, by rw [takesPart_of_ne hne, holds_ok_iff.2 hb]⟩
      obtain ⟨b, hb⟩ := hb
      rw [Traced.bind_ok hb, Traced.bind_error (ih hk)]

theorem select_of_refused (hk : e.firstRefused? m = some key) (hf : e.Refuses key f) :
    (e.select policy m.toList).outcome = .error f := by
  rw [firstRefused?, guardKeys, List.find?_filter] at hk
  have hfind : m.keys.find? (fun k => k ≠ otherwiseKey ∧ (e.truth? k).isNone) = some key := by
    simpa using hk
  exact congrArg Traced.outcome (Traced.bind_error (candidates_of_refused hfind hf))

/-! ## All guards have truth values -/

theorem decided_of_not_refused (h : e.firstRefused? m = none) : e.Decided m.keys := by
  intro k hk
  by_cases hne : k = otherwiseKey
  · rw [hne]
    exact takesPart_ok takesPart_otherwiseKey
  · have hmem : k ∈ guardKeys m := List.mem_filter.2 ⟨hk, by simpa using hne⟩
    have htruth := List.find?_eq_none.1 h _ hmem
    obtain ⟨b, hb⟩ := Option.ne_none_iff_exists'.1 (fun hnone => htruth (by rw [hnone]; rfl) :
      e.truth? k ≠ none)
    exact takesPart_ok (by rw [takesPart_of_ne hne, holds_ok_iff.2 hb])

theorem filter_satisfied (m : OrderedMap Node) :
    (m.keys.filter e.satisfied).filter (fun k => k ≠ otherwiseKey) = e.trueKeys m := by
  rw [trueKeys, guardKeys, List.filter_filter, List.filter_filter]
  refine List.filter_congr fun k _ => ?_
  by_cases hne : k = otherwiseKey
  · simp [hne]
  · simp [hne, satisfied_of_ne hne]

/-- With no true guard but `else`, what takes part is `else`, if it is there. -/
theorem satisfied_of_trueKeys_eq_nil (h : e.trueKeys m = []) :
    m.keys.filter e.satisfied = if otherwiseKey ∈ m.keys then [otherwiseKey] else [] := by
  have hsatisfied : ∀ k ∈ m.keys, e.satisfied k = (k == otherwiseKey) := by
    intro k hk
    by_cases hne : k = otherwiseKey
    · simp [hne, satisfied_otherwiseKey]
    · have hmem : k ∈ guardKeys m := List.mem_filter.2 ⟨hk, by simpa using hne⟩
      have hfalse := List.filter_eq_nil_iff.1 h _ hmem
      simp only [decide_eq_true_eq] at hfalse
      simp [hne, satisfied_of_ne hne, hfalse]
  have hd : m.keys.Nodup := m.nodup_keys
  rw [List.filter_congr hsatisfied, List.filter_beq]
  split
  case isTrue hk => rw [List.count_eq_one_of_mem hd hk, List.replicate_one]
  case isFalse hk => rw [List.count_eq_zero_of_not_mem hk, List.replicate_zero]

theorem preferred_of_filter_ne_nil {cs : List String}
    (h : (cs.filter fun c => c ≠ otherwiseKey) ≠ []) :
    preferred cs = cs.filter fun c => c ≠ otherwiseKey := by
  unfold preferred
  split
  case isTrue => rfl
  case isFalse hlen =>
    cases cs with
    | nil => exact absurd rfl h
    | cons c cs =>
      cases cs with
      | nil =>
        by_cases hne : c = otherwiseKey
        · simp [hne] at h
        · simp [hne]
      | cons => exact absurd (by simp) hlen

theorem select_of_pick (hd : e.firstRefused? m = none) (hp : policy.pick (e.trueKeys m) = some key) :
    ∃ value, m.get? key = some value ∧
      (e.select policy m.toList).outcome = .ok (key, value) := by
  have hkey : key ∈ m.keys := (List.mem_filter.1 (List.mem_filter.1 (Policy.pick_mem hp)).1).1
  obtain ⟨value, hvalue⟩ := exists_lookup_of_mem_keys hkey
  have hne : e.trueKeys m ≠ [] := by
    intro hnil
    rw [hnil, Policy.pick_eq_none_iff.2 rfl] at hp
    cases hp
  rw [← filter_satisfied] at hp hne
  refine ⟨value, (m.get?_eq_lookup key).trans hvalue, ?_⟩
  refine select_ok_iff.2 ⟨decided_of_not_refused hd, ?_, hvalue⟩
  rw [← preferred_of_filter_ne_nil hne] at hp
  exact hp

theorem select_of_trueKeys_eq_nil (hd : e.firstRefused? m = none) (ht : e.trueKeys m = []) :
    (e.select policy m.toList).outcome =
      match m.get? otherwiseKey with
      | some value => .ok (otherwiseKey, value)
      | none => .error (.noGuardSatisfied m.toList) := by
  have hcs : (e.candidates (m.toList.map Prod.fst)).outcome =
      .ok (if otherwiseKey ∈ m.keys then [otherwiseKey] else []) := by
    rw [← satisfied_of_trueKeys_eq_nil ht]
    exact candidates_ok_iff.2 ⟨decided_of_not_refused hd, rfl⟩
  rw [select, Traced.bind_ok hcs, m.get?_eq_lookup]
  split
  case isTrue hk =>
    obtain ⟨value, hvalue⟩ := exists_lookup_of_mem_keys hk
    rw [hvalue]
    cases policy <;> exact congrArg (fun v => Except.ok (otherwiseKey, v.getD .null)) hvalue
  case isFalse hk =>
    rw [EntryList.lookup_eq_none_iff_not_mem.2 hk]
    cases policy <;> rfl

theorem select_noGuardSatisfied_iff (hd : e.firstRefused? m = none) :
    (e.select policy m.toList).outcome = .error (.noGuardSatisfied m.toList) ↔
      e.trueKeys m = [] ∧ m.get? otherwiseKey = none := by
  constructor
  · intro h
    by_cases ht : e.trueKeys m = []
    · rw [select_of_trueKeys_eq_nil hd ht] at h
      refine ⟨ht, ?_⟩
      cases hv : m.get? otherwiseKey with
      | none => rfl
      | some value =>
        rw [hv] at h
        cases h
    · obtain ⟨key, hp⟩ := Option.ne_none_iff_exists'.1 (mt Policy.pick_eq_none_iff.1 ht)
      obtain ⟨value, -, hok⟩ := select_of_pick hd hp
      rw [hok] at h
      cases h
  · rintro ⟨ht, hv⟩
    rw [select_of_trueKeys_eq_nil hd ht, hv]

/-- **The choice goes by the policy.** The first guard without a truth value is what it fails for. If
every guard has one, the policy takes the first or the last of those that are true, and the value
under that key is what the choice gives; if none is true, it gives the value under `else`, and fails
for want of one. The value is the one that comes out when the winner is removed from the map, and it
is always there. -/
theorem select_follows_policy (e : Engine) (policy : Policy) (m : OrderedMap Node) :
    (∀ key, e.firstRefused? m = some key →
      ∃ f, e.Refuses key f ∧ (e.select policy m.toList).outcome = .error f) ∧
    (e.firstRefused? m = none →
      (∀ key, (policy = .first ∧ (e.trueKeys m).head? = some key ∨
          policy = .last ∧ (e.trueKeys m).getLast? = some key) →
        ∃ value, m.get? key = some value ∧
          (e.select policy m.toList).outcome = .ok (key, value)) ∧
      (∀ value, e.trueKeys m = [] → m.get? otherwiseKey = some value →
        (e.select policy m.toList).outcome = .ok (otherwiseKey, value)) ∧
      ((e.select policy m.toList).outcome = .error (.noGuardSatisfied m.toList) ↔
        e.trueKeys m = [] ∧ m.get? otherwiseKey = none)) ∧
    ∀ key value, (e.select policy m.toList).outcome = .ok (key, value) →
      m.get? key = some value ∧ (m.erase key).1 = some value := by
  refine ⟨fun key hk => ?_,
    fun hd => ⟨fun key hp => ?_, fun value ht hv => ?_, select_noGuardSatisfied_iff hd⟩,
    fun key value h => ?_⟩
  · have hnone := List.find?_some hk
    obtain ⟨f, hf⟩ := exists_refuses (Option.isNone_iff_eq_none.1 hnone)
    exact ⟨f, hf, select_of_refused hk hf⟩
  · exact select_of_pick hd (Policy.pick_eq_some_iff.2 hp)
  · rw [select_of_trueKeys_eq_nil hd ht, hv]
  · have hget : m.get? key = some value := (m.get?_eq_lookup key).trans (lookup_of_select h)
    exact ⟨hget, (m.erase_fst key).trans hget⟩

/-- Two guards of three are true besides `else`, and the policy decides which one wins. -/
example :
    (select (ofTable [("a", .bool true), ("b", .bool false), ("c", .bool true)]) .first
      [("else", .null), ("a", .mapping []), ("b", .null), ("c", .list [])]).outcome =
        .ok ("a", .mapping []) ∧
    (select (ofTable [("a", .bool true), ("b", .bool false), ("c", .bool true)]) .last
      [("else", .null), ("a", .mapping []), ("b", .null), ("c", .list [])]).outcome =
        .ok ("c", .list []) := by
  constructor <;> cbv

end Engine

end GuardTree
