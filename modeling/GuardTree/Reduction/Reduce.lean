import GuardTree.Placeholder.Expansion
import GuardTree.Reduction.Selection
import GuardTree.Tree.Measure

/-! # Reduction of a tree

Reducing a mapping goes through four steps.

* `expandKeys`: keys with placeholders are expanded, and their entries inserted anew after the
  others.
* `collapse`: as long as the mapping is guarded, the entry that wins takes its place.
* `expandValues`: the placeholders of the remaining string values are expanded.
* `reduceEntries`: mappings among the values are reduced in turn.

Scalars and lists are left as they are, and so is what a guard selects, unless it is a mapping. No
step adds nodes to the tree, which is why reduction ends.
-/

namespace GuardTree

set_option autoImplicit false

open Node

namespace Engine

variable (e : Engine) (policy : Policy) (r : Option Resolver)

/-! ## The steps for one mapping -/

def renameEntry (entry : String × Node) : Traced (String × Node) := do
  let key ← Placeholder.expand r entry.1
  Traced.note (.renamed entry.1 key)
  return (key, entry.2)

/-- Expands the keys that have placeholders. Their entries are inserted after the others, in order:
a new key goes to the end, and a key that is there already has its value replaced. -/
def expandKeys (entries : List (String × Node)) : Traced (List (String × Node)) :=
  if entries.any fun entry => e.hasPlaceholder entry.1 then do
    let kept := entries.filter fun entry => !e.hasPlaceholder entry.1
    let renamed ← (entries.filter fun entry => e.hasPlaceholder entry.1).mapM (renameEntry r)
    return ((OrderedMap.ofList kept).insertAll renamed).toList
  else return entries

/-- Lets guards decide until the mapping is no longer guarded, or no mapping. -/
def collapse (entries : List (String × Node)) : Traced Node := do
  if ← e.isGuarded entries then
    (e.select policy entries).bindWith fun entry _h =>
      match _hv : entry.2 with
      | .mapping inner => collapse inner
      | value => return value
  else return .mapping entries
termination_by countEntries entries
decreasing_by
  have := count_le_countEntries (select_mem _h)
  rw [_hv, count] at this
  omega

/-- Expands the placeholders of a string value; other values stay. -/
def expandValue (entry : String × Node) : Traced (String × Node) :=
  match entry.2 with
  | .scalar (.string s) => do return (entry.1, .scalar (.string (← Placeholder.expand r s)))
  | _ => return entry

def expandValues (entries : List (String × Node)) : Traced (List (String × Node)) :=
  entries.mapM (expandValue r)

/-! ## No step adds nodes -/

variable {e policy r}

theorem renameEntry_snd {entry entry' : String × Node}
    (h : (renameEntry r entry).outcome = .ok entry') : entry'.2 = entry.2 := by
  rw [renameEntry] at h
  obtain ⟨_, _, h⟩ := Traced.bind_outcome_eq_ok.1 h
  obtain ⟨_, _, h⟩ := Traced.bind_outcome_eq_ok.1 h
  cases h
  rfl

/-- A value stays, or it is a text and is expanded. -/
theorem expandValue_cases {entry entry' : String × Node}
    (h : (expandValue r entry).outcome = .ok entry') :
    entry' = entry ∨ ∃ key text text', entry = (key, .scalar (.string text)) ∧
      entry' = (key, .scalar (.string text')) ∧ (Placeholder.expand r text).outcome = .ok text' := by
  obtain ⟨key, value⟩ := entry
  unfold expandValue at h
  split at h
  · rename_i text hvalue
    obtain ⟨text', htext, h⟩ := Traced.bind_outcome_eq_ok.1 h
    cases hvalue
    cases h
    exact .inr ⟨key, text, text', rfl, rfl, htext⟩
  · cases h
    exact .inl rfl

theorem expandValue_count {entry entry' : String × Node}
    (h : (expandValue r entry).outcome = .ok entry') : entry'.2.count = entry.2.count := by
  obtain rfl | ⟨key, text, text', rfl, rfl, _⟩ := expandValue_cases h <;> rfl

theorem countEntries_mapM {f : String × Node → Traced (String × Node)}
    (hf : ∀ entry entry', (f entry).outcome = .ok entry' → entry'.2.count = entry.2.count)
    {entries entries' : List (String × Node)} (h : (entries.mapM f).outcome = .ok entries') :
    countEntries entries' = countEntries entries := by
  induction entries generalizing entries' with
  | nil =>
    rw [List.mapM_nil] at h
    cases h
    rfl
  | cons entry entries ih =>
    rw [List.mapM_cons] at h
    obtain ⟨entry', he, h⟩ := Traced.bind_outcome_eq_ok.1 h
    obtain ⟨others, ho, h⟩ := Traced.bind_outcome_eq_ok.1 h
    cases h
    rw [countEntries_cons, countEntries_cons, hf _ _ he, ih ho]

theorem expandKeys_count_le {entries entries' : List (String × Node)}
    (h : (e.expandKeys r entries).outcome = .ok entries') :
    countEntries entries' ≤ countEntries entries := by
  unfold expandKeys at h
  split at h
  · obtain ⟨renamed, hr, h⟩ := Traced.bind_outcome_eq_ok.1 h
    cases h
    have h₁ := countEntries_mapM (fun a b hab => by rw [renameEntry_snd hab]) hr
    have h₂ := OrderedMap.countEntries_insertAll_le
      (.ofList (entries.filter fun entry => !e.hasPlaceholder entry.1)) renamed
    have h₃ := OrderedMap.countEntries_ofList_le
      (entries.filter fun entry => !e.hasPlaceholder entry.1)
    have h₄ := countEntries_filter_add (fun entry => e.hasPlaceholder entry.1) entries
    omega
  · cases h
    exact Nat.le_refl _

theorem collapse_count_le {entries : List (String × Node)} {n : Node}
    (h : (e.collapse policy entries).outcome = .ok n) : n.count ≤ 1 + countEntries entries := by
  rw [collapse] at h
  obtain ⟨guarded, _, h⟩ := Traced.bind_outcome_eq_ok.1 h
  split at h
  · obtain ⟨entry, he, h⟩ := Traced.bindWith_outcome_eq_ok.1 h
    have hle := count_le_countEntries (select_mem he)
    split at h
    · rename_i inner hv
      rw [hv, count] at hle
      have hlt : countEntries inner < countEntries entries := by omega
      have := collapse_count_le h
      omega
    · cases h
      omega
  · cases h
    simp [count]
termination_by countEntries entries

theorem expandValues_count {entries entries' : List (String × Node)}
    (h : (expandValues r entries).outcome = .ok entries') :
    countEntries entries' = countEntries entries :=
  countEntries_mapM (fun _ _ => expandValue_count) h

/-! ## All mappings -/

variable (e policy r)

mutual

def reduce : Node → Traced Node
  | .mapping entries =>
    (e.expandKeys r entries).bindWith fun expanded _h₁ =>
      (e.collapse policy expanded).bindWith fun n _h₂ =>
        match n with
        | .mapping entries' =>
          (expandValues r entries').bindWith fun entries'' _h₃ => do
            return .mapping (← reduceEntries entries'')
        | n => return n
  | n => return n
termination_by n => 3 * n.count
decreasing_by
  have h₁ := expandKeys_count_le _h₁
  have h₂ := collapse_count_le _h₂
  have h₃ := expandValues_count _h₃
  simp only [count] at h₂ ⊢
  omega

/-- The entries with their values reduced, one after the other. -/
def reduceEntries : List (String × Node) → Traced (List (String × Node))
  | [] => return []
  | (key, value) :: entries => do
    let value' ← reduceValue key value
    let entries' ← reduceEntries entries
    return (key, value') :: entries'
termination_by entries => 3 * countEntries entries + 2
decreasing_by
  · simp only [countEntries]
    omega
  · have := count_pos value
    simp only [countEntries]
    omega

/-- The value of a key: a mapping is reduced, anything else stays. -/
def reduceValue (key : String) : Node → Traced Node
  | .mapping entries => do
    Traced.note (.descending key)
    reduce (.mapping entries)
  | value => return value
termination_by n => 3 * n.count + 1

end

end Engine

end GuardTree
