import GuardTree.Reduction.Engine
import GuardTree.Reduction.Traced

/-! # Selection among guards

* `isGuarded`: whether all keys of a mapping are guards; a mixture is a failure.
* `select`: the key that wins and its value. All guards but `else` are evaluated, in order; the
  policy picks among those that are true, and `else` wins when none is. The value is looked up by
  the key.
-/

namespace GuardTree

set_option autoImplicit false

namespace Engine

/-- Classifies a key, with a record if it cannot be read. -/
def check (e : Engine) (key : String) : Traced Bool :=
  match e.classify key with
  | .guard => return true
  | .plain => return false
  | .unreadable error => do
    Traced.note (.notGuard error)
    return false

/-- Whether the entries of a mapping are guarded; no entries are not. -/
def isGuarded (e : Engine) (entries : List (String × Node)) : Traced Bool := do
  let guards ← (entries.map Prod.fst).mapM e.check
  if guards.all (!·) then return false
  else if guards.all id then return true
  else Traced.fail (.mixedGuard entries)

def isGuardedNode (e : Engine) : Node → Traced Bool
  | .mapping entries => e.isGuarded entries
  | _ => return false

def holds (e : Engine) (guard : String) : Traced Bool :=
  if e.hasPlaceholder guard then Traced.fail (.unresolvedGuardVariable guard)
  else match e.evaluate guard with
    | .error error => Traced.fail (.formula guard error)
    | .ok value =>
      match value.bool? with
      | some b => return b
      | none => Traced.fail (.nonBooleanGuard guard value)

/-- Whether a key takes part in the choice: `else` does, and every other guard that is true. -/
def takesPart (e : Engine) (key : String) : Traced Bool :=
  if key = otherwiseKey then return true else e.holds key

/-- The keys that take part in the choice, in order. -/
def candidates (e : Engine) : List String → Traced (List String)
  | [] => return []
  | key :: keys => do
    let isCandidate ← e.takesPart key
    let others ← e.candidates keys
    return if isCandidate then key :: others else others

/-- The candidates without `else`, unless it stands alone. -/
def preferred (keys : List String) : List String :=
  if 1 < keys.length then keys.filter fun key => key ≠ otherwiseKey else keys

/-- The key that wins and its value, which is looked up by the key, with null for a value that is
not there. -/
def select (e : Engine) (policy : Policy) (entries : List (String × Node)) :
    Traced (String × Node) := do
  let cs := preferred (← e.candidates (entries.map Prod.fst))
  match policy.pick cs with
  | none => Traced.fail (.noGuardSatisfied entries)
  | some key =>
    Traced.note (.selected key policy cs.length)
    return (key, (entries.lookup key).getD .null)

/-! ## What is selected was there -/

variable {e : Engine} {policy : Policy} {entries : List (String × Node)} {keys cs : List String}
  {key : String}

theorem mem_of_mem_candidates (h : (e.candidates keys).outcome = .ok cs) (hk : key ∈ cs) :
    key ∈ keys := by
  induction keys generalizing cs with
  | nil =>
    cases h
    exact hk
  | cons k keys ih =>
    rw [candidates] at h
    obtain ⟨_, _, h⟩ := Traced.bind_outcome_eq_ok.1 h
    obtain ⟨others, ho, h⟩ := Traced.bind_outcome_eq_ok.1 h
    cases h
    split at hk
    · rcases List.mem_cons.1 hk with rfl | hk
      · exact List.mem_cons_self
      · exact List.mem_cons_of_mem _ (ih ho hk)
    · exact List.mem_cons_of_mem _ (ih ho hk)

theorem mem_of_mem_preferred (hk : key ∈ preferred cs) : key ∈ cs := by
  unfold preferred at hk
  split at hk
  · exact (List.mem_filter.1 hk).1
  · exact hk

theorem exists_lookup_of_mem_keys (hk : key ∈ entries.map Prod.fst) :
    ∃ value, entries.lookup key = some value := by
  obtain ⟨entry, hm, rfl⟩ := List.mem_map.1 hk
  rw [← Option.isSome_iff_exists, List.lookup_isSome_iff]
  exact ⟨entry, hm, beq_self_eq_true _⟩

/-- The winner is one of the keys. -/
theorem mem_keys_of_pick (hcs : (e.candidates (entries.map Prod.fst)).outcome = .ok cs)
    (hp : policy.pick (preferred cs) = some key) : key ∈ entries.map Prod.fst :=
  mem_of_mem_candidates hcs (mem_of_mem_preferred (Policy.pick_mem hp))

/-- The value that goes with the winner is never the null of a missing one. -/
theorem lookup_of_select {entry : String × Node}
    (h : (e.select policy entries).outcome = .ok entry) :
    entries.lookup entry.1 = some entry.2 := by
  rw [select] at h
  obtain ⟨cs, hcs, h⟩ := Traced.bind_outcome_eq_ok.1 h
  dsimp only at h
  split at h
  · cases h
  · rename_i hp
    obtain ⟨_, _, h⟩ := Traced.bind_outcome_eq_ok.1 h
    cases h
    obtain ⟨value, hvalue⟩ := exists_lookup_of_mem_keys (mem_keys_of_pick hcs hp)
    rw [hvalue]
    rfl

theorem select_mem {entry : String × Node}
    (h : (e.select policy entries).outcome = .ok entry) : entry ∈ entries := by
  obtain ⟨xs, ys, hsplit, -⟩ := List.lookup_eq_some_iff.1 (lookup_of_select h)
  rw [hsplit]
  exact List.mem_append_right _ List.mem_cons_self

end Engine

end GuardTree
