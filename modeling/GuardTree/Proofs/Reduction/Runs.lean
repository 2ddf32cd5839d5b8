import GuardTree.Proofs.Placeholder.Substitution
import GuardTree.Proofs.Reduction.Steps

/-! # Runs of a reduction, failed ones included

Two inductions along a reduction do not ask for a result: `collapse_induction` goes through what
guards select, and `reduce_induction` through the values of what is left. A failed expansion names a
placeholder of its text (`expand_error`), and guards are decided without a lookup (`collapse_asked`).
-/

namespace GuardTree

set_option autoImplicit false

namespace Traced

variable {α β : Type} {x : Traced α} {k : α → Traced β}

theorem asked_bind_eq_nil (hx : x.asked = []) (hk : ∀ a, x.outcome = .ok a → (k a).asked = []) :
    (x >>= k).asked = [] := by
  obtain ⟨a, ha⟩ | ⟨f, hf⟩ := x.ok_or_error
  · rw [asked_bind_of_ok ha, hx, hk a ha]
    rfl
  · rw [asked_bind_of_error hf, hx]

theorem asked_mapM_eq_nil {f : α → Traced β} {xs : List α} (h : ∀ a ∈ xs, (f a).asked = []) :
    (xs.mapM f).asked = [] := by
  induction xs with
  | nil => rfl
  | cons a xs ih =>
    rw [List.forall_mem_cons] at h
    rw [List.mapM_cons]
    refine asked_bind_eq_nil h.1 fun _ _ => ?_
    exact asked_bind_eq_nil (ih h.2) fun _ _ => rfl

end Traced

/-! ## Why an expansion fails -/

namespace Placeholder

theorem resolve_error {r : Option Resolver} {p : Placeholder} {fault : Failure}
    (h : (resolve r p).outcome = .error fault) : ∃ reason, fault = .expansion p reason := by
  cases r with
  | none =>
    cases h
    exact ⟨_, rfl⟩
  | some r =>
    rw [resolve, Traced.bind_ok (lookUp_outcome p)] at h
    cases hf : found? r p with
    | none =>
      rw [hf] at h
      cases h
      exact ⟨_, rfl⟩
    | some value =>
      rw [hf] at h
      cases h

theorem resolveAll_error {r : Option Resolver} {known : Table} {ps : List Placeholder}
    {fault : Failure} (h : (resolveAll r known ps).outcome = .error fault) :
    ∃ p ∈ ps, ∃ reason, fault = .expansion p reason := by
  induction ps generalizing known with
  | nil => cases h
  | cons p ps ih =>
    rw [resolveAll] at h
    split at h
    · obtain ⟨p', hp', hreason⟩ := ih h
      exact ⟨p', List.mem_cons_of_mem _ hp', hreason⟩
    · obtain h | ⟨_, _, h⟩ := Traced.bind_outcome_eq_error h
      · exact ⟨p, List.mem_cons_self, resolve_error h⟩
      · obtain ⟨p', hp', hreason⟩ := ih h
        exact ⟨p', List.mem_cons_of_mem _ hp', hreason⟩

/-- What an expansion fails for is one of the placeholders of the text. -/
theorem expand_error {r : Option Resolver} {text : String} {fault : Failure}
    (h : (expand r text).outcome = .error fault) :
    ∃ p ∈ all text, ∃ reason, fault = .expansion p reason := by
  obtain h | ⟨_, _, h⟩ := Traced.bind_outcome_eq_error h
  · exact resolveAll_error h
  · cases h

end Placeholder

namespace Engine

variable {e : Engine} {policy : Policy} {r : Option Resolver}

/-! ## Values -/

theorem reduceValue_of_entries?_eq_none {n : Node} (hn : n.entries? = none) (key : String) :
    e.reduceValue policy r key n = pure n := by
  cases n with
  | mapping entries => cases hn
  | scalar leaf => rw [reduceValue]; simp
  | list items => rw [reduceValue]; simp

/-- Entries are independent of each other. -/
theorem reduceEntries_eq_mapM (entries : List (String × Node)) :
    e.reduceEntries policy r entries = entries.mapM fun entry => do
      return (entry.1, ← e.reduceValue policy r entry.1 entry.2) := by
  induction entries with
  | nil => rw [reduceEntries]; rfl
  | cons entry entries ih =>
    rw [reduceEntries, List.mapM_cons, ih]
    simp only [bind_assoc, pure_bind]

/-! ## Induction along a run -/

/-- From the mapping that a guard may select to the mapping it stands in. -/
theorem collapse_induction (e : Engine) (policy : Policy) {motive : List (String × Node) → Prop}
    (mapping : ∀ entries, (∀ key inner,
      (e.select policy entries).outcome = .ok (key, .mapping inner) → motive inner) →
      motive entries)
    (entries : List (String × Node)) : motive entries := by
  induction hk : Node.countEntries entries using Nat.strongRecOn generalizing entries with
  | _ k ih =>
    refine mapping entries fun key inner hs => ih _ ?_ inner rfl
    have hle := Node.count_le_countEntries (select_mem hs)
    rw [Node.count] at hle
    omega

/-- From the values that a run may go on with to the mapping it starts at. -/
theorem reduce_induction (e : Engine) (policy : Policy) (r : Option Resolver)
    {motive : Node → Prop} (leaf : ∀ n, n.entries? = none → motive n)
    (mapping : ∀ entries, (∀ expanded plain values,
      (e.expandKeys r entries).outcome = .ok expanded →
      (e.collapse policy expanded).outcome = .ok (.mapping plain) →
      (expandValues r plain).outcome = .ok values → ∀ entry ∈ values, motive entry.2) →
      motive (.mapping entries))
    (n : Node) : motive n := by
  induction hk : n.count using Nat.strongRecOn generalizing n with
  | _ k ih =>
    cases n with
    | scalar => exact leaf _ rfl
    | list => exact leaf _ rfl
    | mapping entries =>
      refine mapping entries fun expanded plain values hx hc hv entry he => ih _ ?_ entry.2 rfl
      have h₁ := expandKeys_count_le hx
      have h₂ := collapse_count_le hc
      have h₃ := expandValues_count hv
      have h₄ := Node.count_le_countEntries he
      simp only [Node.count] at hk h₂
      omega

/-! ## Guards are decided without a lookup -/

theorem isGuarded_asked (entries : List (String × Node)) : (e.isGuarded entries).asked = [] := by
  unfold isGuarded
  refine Traced.asked_bind_eq_nil (Traced.asked_mapM_eq_nil fun key _ => ?_) fun guards _ => ?_
  · unfold check
    cases e.classify key <;> rfl
  · split
    · rfl
    · split <;> rfl

theorem takesPart_asked (key : String) : (e.takesPart key).asked = [] := by
  unfold takesPart holds
  split
  · rfl
  · split
    · rfl
    · split
      · rfl
      · split <;> rfl

theorem candidates_asked (keys : List String) : (e.candidates keys).asked = [] := by
  induction keys with
  | nil => rfl
  | cons key keys ih =>
    rw [candidates]
    refine Traced.asked_bind_eq_nil (takesPart_asked _) fun _ _ => ?_
    exact Traced.asked_bind_eq_nil ih fun _ _ => rfl

theorem select_asked (entries : List (String × Node)) : (e.select policy entries).asked = [] := by
  unfold select
  refine Traced.asked_bind_eq_nil (candidates_asked _) fun cs _ => ?_
  dsimp only
  split <;> rfl

theorem collapse_asked (entries : List (String × Node)) :
    (e.collapse policy entries).asked = [] := by
  induction entries using collapse_induction e policy with
  | mapping entries ih =>
    rw [collapse_eq_bind]
    refine Traced.asked_bind_eq_nil (isGuarded_asked entries) fun guarded _ => ?_
    split
    · refine Traced.asked_bind_eq_nil (select_asked entries) fun entry hs => ?_
      obtain ⟨key, value⟩ := entry
      cases value with
      | mapping inner => exact ih key inner hs
      | _ => rfl
    · rfl

end Engine

end GuardTree
