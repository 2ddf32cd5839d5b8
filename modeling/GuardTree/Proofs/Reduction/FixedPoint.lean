import GuardTree.Proofs.Formula.GuardShape
import GuardTree.Proofs.Placeholder.Occurrence
import GuardTree.Proofs.Reduction.Choice
import GuardTree.Proofs.Reduction.GuardFree
import GuardTree.Proofs.Reduction.Runs

/-! # Trees that are left as they are

Where no key is a guard and nothing is left to be expanded, every step of a reduction hands on what
it was given, without a lookup (`reduce_yields_self`). The result of a reduction has no guards, so
once it has no placeholders either, reducing it again changes nothing.
-/

namespace GuardTree

set_option autoImplicit false

namespace Traced

variable {α β : Type}

/-- The run has the result `a`, and no name is looked up. -/
structure Yields (x : Traced α) (a : α) : Prop where
  outcome : x.outcome = .ok a
  asked : x.asked = []

namespace Yields

theorem pure (a : α) : Yields (Pure.pure a) a := ⟨rfl, rfl⟩

theorem bind {x : Traced α} {k : α → Traced β} {a : α} {b : β} (h : x.Yields a)
    (hk : (k a).Yields b) : (x >>= k).Yields b := by
  refine ⟨bind_outcome_eq_ok.2 ⟨a, h.outcome, hk.outcome⟩, ?_⟩
  rw [asked_bind_of_ok h.outcome, h.asked, hk.asked]
  rfl

theorem mapM_self {f : α → Traced α} {xs : List α} (h : ∀ a ∈ xs, (f a).Yields a) :
    (xs.mapM f).Yields xs := by
  induction xs with
  | nil => exact pure []
  | cons a xs ih =>
    rw [List.forall_mem_cons] at h
    rw [List.mapM_cons]
    exact h.1.bind ((ih h.2).bind (pure _))

end Yields

end Traced

namespace Engine

variable {e : Engine} {policy : Policy} {r : Option Resolver} {entries : List (String × Node)}
  {n : Node}

/-- No key that stands under keys alone has a placeholder, nor has a text there. -/
def Expanded (e : Engine) (n : Node) : Prop :=
  ∀ entries, n.Reaches (.mapping entries) → ∀ entry ∈ entries,
    e.hasPlaceholder entry.1 = false ∧
      ∀ text, entry.2 = .scalar (.string text) → Placeholder.occursIn text = false

theorem expanded_mapping (h : ∀ entry ∈ entries, e.hasPlaceholder entry.1 = false ∧
    (∀ text, entry.2 = .scalar (.string text) → Placeholder.occursIn text = false) ∧
    e.Expanded entry.2) : e.Expanded (.mapping entries) := by
  intro found hr
  cases hr with
  | refl => exact fun entry he => ⟨(h entry he).1, (h entry he).2.1⟩
  | under he hr => exact (h _ he).2.2 found hr

theorem expanded_of_entries?_eq_none (hn : n.entries? = none) : e.Expanded n :=
  fun _ h => absurd h (Node.Reaches.mapping_of_entries?_eq_none hn)

/-! ## Steps that change nothing -/

theorem expandKeys_yields_self (h : ∀ entry ∈ entries, e.hasPlaceholder entry.1 = false) :
    (e.expandKeys r entries).Yields entries := by
  have hany : ¬ (entries.any fun entry => e.hasPlaceholder entry.1) = true := by simpa using h
  rw [expandKeys, if_neg hany]
  exact .pure entries

theorem collapse_yields_self (h : ∀ entry ∈ entries, e.isGuard entry.1 = false) :
    (e.collapse policy entries).Yields (.mapping entries) :=
  ⟨collapse_ok_iff.2 (.inl ⟨isGuarded_ok_false_iff.2 h, rfl⟩), collapse_asked entries⟩

theorem expandValue_yields_self {entry : String × Node}
    (h : ∀ text, entry.2 = .scalar (.string text) → Placeholder.occursIn text = false) :
    (expandValue r entry).Yields entry := by
  unfold expandValue
  split
  case h_1 text htext =>
    rw [Placeholder.expand_of_not_occursIn (h text htext), pure_bind, ← htext]
    exact .pure entry
  case h_2 => exact .pure entry

theorem reduceValue_yields_self {key : String} (h : (e.reduce policy r n).Yields n) :
    (e.reduceValue policy r key n).Yields n := by
  cases n with
  | mapping entries =>
    rw [reduceValue]
    exact .bind (a := ()) ⟨rfl, rfl⟩ h
  | scalar leaf =>
    rw [reduceValue_of_entries?_eq_none rfl]
    exact .pure _
  | list items =>
    rw [reduceValue_of_entries?_eq_none rfl]
    exact .pure _

theorem reduceEntries_yields_self
    (h : ∀ entry ∈ entries, (e.reduce policy r entry.2).Yields entry.2) :
    (e.reduceEntries policy r entries).Yields entries := by
  rw [reduceEntries_eq_mapM]
  exact .mapM_self fun entry he => (reduceValue_yields_self (h entry he)).bind (.pure entry)

/-- A tree without guards and placeholders is its own reduction. -/
theorem reduce_yields_self (hg : e.GuardFree n) (hx : e.Expanded n) :
    (e.reduce policy r n).Yields n := by
  induction n using reduce_induction e policy r with
  | leaf n hn =>
    rw [reduce_of_entries?_eq_none hn]
    exact .pure n
  | mapping entries ih =>
    have hkeys := expandKeys_yields_self (r := r) fun entry he => (hx _ (.refl _) entry he).1
    have hcollapse : (e.collapse policy entries).Yields (.mapping entries) :=
      collapse_yields_self (hg _ (.refl _))
    have hvalues : (expandValues r entries).Yields entries :=
      .mapM_self fun entry he => expandValue_yields_self (hx _ (.refl _) entry he).2
    have hentries : (e.reduceEntries policy r entries).Yields entries := by
      refine reduceEntries_yields_self fun entry he => ?_
      exact ih entries entries entries hkeys.outcome hcollapse.outcome hvalues.outcome entry he
        (fun _ h => hg _ (.under he h)) (fun _ h => hx _ (.under he h))
    rw [reduce_mapping_eq_bind]
    exact hkeys.bind (hcollapse.bind (hvalues.bind (hentries.bind (.pure _))))

/-- **Plain trees are fixed points, and a reduction is done once.** Let nothing be left to be
expanded in `n` outside lists. If it has no guards either, then it is reduced to itself, and no name
is looked up. And if it is the result of any reduction, it has none, so reducing it again, with
whatever policy and with a resolver or without, gives `n`. -/
theorem reduce_fixes_expanded (hx : e.Expanded n) :
    (e.GuardFree n → ∀ policy r, (e.reduce policy r n).outcome = .ok n ∧
      (e.reduce policy r n).asked = []) ∧
    ∀ policy r origin, (e.reduce policy r origin).outcome = .ok n →
      ∀ policy' r', (e.reduce policy' r' n).outcome = .ok n := by
  refine ⟨fun hg policy r => ?_, fun policy r origin h policy' r' => ?_⟩
  · have hself : (e.reduce policy r n).Yields n := reduce_yields_self hg hx
    exact ⟨hself.outcome, hself.asked⟩
  · exact (reduce_yields_self (reduce_guardFree h) hx).outcome

/-- The branch of `else` has a list, in which there may be guards and placeholders. -/
theorem reduce_fixes_expanded_list :
    (formulas.reduce .last none (.mapping [("else", .mapping
        [("a", .list [.mapping [("else", .scalar (.string "$X"))]])])])).outcome =
      .ok (.mapping [("a", .list [.mapping [("else", .scalar (.string "$X"))]])]) ∧
    (formulas.reduce .first none
        (.mapping [("a", .list [.mapping [("else", .scalar (.string "$X"))]])])).outcome =
      .ok (.mapping [("a", .list [.mapping [("else", .scalar (.string "$X"))]])]) ∧
    (formulas.reduce .first none
        (.mapping [("a", .list [.mapping [("else", .scalar (.string "$X"))]])])).asked = [] := by
  have hcuts : Formula.Cuts "a".toList [.token (.ident "a") ['a']] :=
    .token (t := ⟨.ident "a", [], []⟩) rfl rfl .nil
  have hkey : formulas.isGuard "a" = false :=
    Formula.isGuard_of_parse (Formula.parse_of_makes hcuts (.ident "a"))
  have hguard : formulas.GuardFree
      (.mapping [("a", .list [.mapping [("else", .scalar (.string "$X"))]])]) :=
    guardFree_mapping (List.forall_mem_singleton.2 hkey)
      (List.forall_mem_singleton.2 (guardFree_of_entries?_eq_none rfl))
  have hexpanded : formulas.Expanded
      (.mapping [("a", .list [.mapping [("else", .scalar (.string "$X"))]])]) := by
    refine expanded_mapping (List.forall_mem_singleton.2 ⟨?_, ?_, ?_⟩)
    · exact Placeholder.not_occursIn_of_not_mem (by decide)
    · rintro text ⟨⟩
    · exact expanded_of_entries?_eq_none rfl
  have hbranch : (formulas.reduce .last none (.mapping [("else", .mapping
      [("a", .list [.mapping [("else", .scalar (.string "$X"))]])])])).outcome =
      .ok (.mapping [("a", .list [.mapping [("else", .scalar (.string "$X"))]])]) := by
    refine reduce_otherwiseKey rfl (isGuarded_ok_false_iff.2 (hguard _ (.refl _))) rfl ?_
    refine reduceEntries_ok_iff.2 (.cons ⟨rfl, ?_⟩ .nil)
    rw [reduce_of_entries?_eq_none rfl]
    rfl
  obtain ⟨hplain, hagain⟩ := reduce_fixes_expanded hexpanded
  exact ⟨hbranch, hagain .last none _ hbranch .first none, (hplain hguard .first none).2⟩

end Engine

end GuardTree
