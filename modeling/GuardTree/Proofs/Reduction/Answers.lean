import GuardTree.Proofs.Reduction.Agreement
import GuardTree.Proofs.Reduction.Runs

/-! # A reduction depends on the answers it gets

A resolver is a function, but a run sees only its values at the names it looks up, and an answer may
decide which name is next. `DecidedByAnswers` says of a run that these values are all it depends on.
Sequences of such runs are of the kind again, so it holds of every step and of `reduce`.
-/

namespace GuardTree

set_option autoImplicit false

/-! ## Runs that depend on a resolver -/

/-- The run with `r` is also the run with any resolver that answers in the same way what it asks. -/
def DecidedByAnswers {α : Type} (r : Resolver) (x : Resolver → Traced α) : Prop :=
  ∀ r', (∀ name ∈ (x r).asked, r' name = r name) → x r' = x r

namespace DecidedByAnswers

variable {α β : Type} {r : Resolver}

theorem const (x : Traced α) : DecidedByAnswers r fun _ => x := fun _ _ => rfl

theorem bind {x : Resolver → Traced α} {k : α → Resolver → Traced β} (hx : DecidedByAnswers r x)
    (hk : ∀ a, (x r).outcome = .ok a → DecidedByAnswers r (k a)) :
    DecidedByAnswers r fun r => x r >>= fun a => k a r := by
  intro r' h
  obtain ⟨a, ha⟩ | ⟨f, hf⟩ := (x r).ok_or_error
  · -- What is asked second is asked by the same run, since the first one had the same answers.
    rw [Traced.asked_bind_of_ok ha] at h
    have hfirst : x r' = x r := hx r' fun name hn => h name (List.mem_append_left _ hn)
    have hsecond : k a r' = k a r := hk a ha r' fun name hn => h name (List.mem_append_right _ hn)
    dsimp only
    rw [hfirst]
    exact Traced.bind_eq_bind rfl ha ha hsecond
  · rw [Traced.asked_bind_of_error hf] at h
    dsimp only
    rw [hx r' h, Traced.bind_error hf, Traced.bind_error hf]

theorem mapM {f : α → Resolver → Traced β} {xs : List α}
    (hf : ∀ a ∈ xs, DecidedByAnswers r (f a)) :
    DecidedByAnswers r fun r => xs.mapM fun a => f a r := by
  induction xs with
  | nil => exact const _
  | cons a xs ih =>
    rw [List.forall_mem_cons] at hf
    simp only [List.mapM_cons]
    refine bind hf.1 fun _ _ => ?_
    exact bind (ih hf.2) fun _ _ => const _

end DecidedByAnswers

/-! ## Expansion -/

namespace Placeholder

variable {r : Resolver}

theorem ask_decided (name : String) : DecidedByAnswers r fun r => ask r name := by
  intro r' h
  dsimp only [ask]
  rw [h name List.mem_cons_self]

theorem fallBack_decided (name : String) (ways : List (List Char × List Char)) :
    DecidedByAnswers r fun r => fallBack r name ways := by
  induction ways with
  | nil => exact .const _
  | cons way others ih =>
    obtain ⟨known, rest⟩ := way
    simp only [fallBack]
    refine .bind (ask_decided _) fun answer _ => ?_
    cases answer with
    | some value => exact .const _
    | none => exact ih

theorem lookUp_decided (p : Placeholder) : DecidedByAnswers r fun r => lookUp r p := by
  unfold lookUp
  refine .bind (ask_decided _) fun answer _ => ?_
  cases answer with
  | some value => exact .const _
  | none =>
    cases p.braced with
    | true => exact .const _
    | false => exact fallBack_decided _ _

theorem resolve_decided (p : Placeholder) : DecidedByAnswers r fun r => resolve (some r) p := by
  unfold resolve
  refine .bind (lookUp_decided p) fun found _ => ?_
  cases found <;> exact .const _

theorem resolveAll_decided (known : Table) (ps : List Placeholder) :
    DecidedByAnswers r fun r => resolveAll (some r) known ps := by
  induction ps generalizing known with
  | nil => exact .const _
  | cons p ps ih =>
    simp only [resolveAll]
    split
    · exact ih known
    · exact .bind (resolve_decided p) fun value _ => ih _

theorem expand_decided (text : String) : DecidedByAnswers r fun r => expand (some r) text :=
  .bind (resolveAll_decided _ _) fun _ _ => .const _

end Placeholder

/-! ## Reduction -/

namespace Engine

variable {e : Engine} {policy : Policy} {r : Resolver}

theorem renameEntry_decided (entry : String × Node) :
    DecidedByAnswers r fun r => renameEntry (some r) entry :=
  .bind (Placeholder.expand_decided _) fun _ _ => .const _

theorem expandKeys_decided (entries : List (String × Node)) :
    DecidedByAnswers r fun r => e.expandKeys (some r) entries := by
  unfold expandKeys
  split
  · exact .bind (.mapM fun entry _ => renameEntry_decided entry) fun _ _ => .const _
  · exact .const _

theorem expandValue_decided (entry : String × Node) :
    DecidedByAnswers r fun r => expandValue (some r) entry := by
  unfold expandValue
  split
  · exact .bind (Placeholder.expand_decided _) fun _ _ => .const _
  · exact .const _

theorem expandValues_decided (entries : List (String × Node)) :
    DecidedByAnswers r fun r => expandValues (some r) entries :=
  .mapM fun entry _ => expandValue_decided entry

theorem reduceValue_decided {key : String} {n : Node}
    (h : DecidedByAnswers r fun r => e.reduce policy (some r) n) :
    DecidedByAnswers r fun r => e.reduceValue policy (some r) key n := by
  cases n with
  | mapping entries =>
    simp only [reduceValue]
    exact .bind (.const _) fun _ _ => h
  | scalar leaf =>
    simp only [reduceValue_of_entries?_eq_none (n := .scalar leaf) rfl]
    exact .const _
  | list items =>
    simp only [reduceValue_of_entries?_eq_none (n := .list items) rfl]
    exact .const _

theorem reduceEntries_decided {entries : List (String × Node)}
    (h : ∀ entry ∈ entries, DecidedByAnswers r fun r => e.reduce policy (some r) entry.2) :
    DecidedByAnswers r fun r => e.reduceEntries policy (some r) entries := by
  simp only [reduceEntries_eq_mapM]
  refine .mapM fun entry he => ?_
  exact .bind (reduceValue_decided (h entry he)) fun _ _ => .const _

theorem reduce_decided (n : Node) : DecidedByAnswers r fun r => e.reduce policy (some r) n := by
  induction n using reduce_induction e policy (some r) with
  | leaf n hn =>
    simp only [reduce_of_entries?_eq_none hn]
    exact .const _
  | mapping entries ih =>
    simp only [reduce_mapping_eq_bind]
    refine .bind (expandKeys_decided entries) fun expanded hx => ?_
    refine .bind (.const _) fun n hc => ?_
    cases n with
    | mapping plain =>
      refine .bind (expandValues_decided plain) fun values hv => ?_
      refine .bind (reduceEntries_decided fun entry he => ?_) fun _ _ => .const _
      exact ih expanded plain values hx hc hv entry he
    | _ => exact .const _

/-- **A reduction depends on a resolver through its answers alone.** With another resolver that
answers in the same way the names that were looked up, unknown ones and beginnings of names
included, the reduction is the same run: it has the same result or the same failure, and looks up
the same names in the same order. -/
theorem reduce_eq_of_answers_eq {r r' : Resolver} {n : Node}
    (h : ∀ name ∈ (e.reduce policy (some r) n).asked, r' name = r name) :
    e.reduce policy (some r') n = e.reduce policy (some r) n :=
  reduce_decided n r' h

/-- The beginning of an unknown name decides on the guard, and with it on the value in which one
more name is looked up. A name that is known to just one resolver is not among them. -/
theorem reduce_eq_of_answers_eq_fallback :
    ((ofTable [("hot_B", .bool true)]).reduce .last
        (some fun name => [("A", "hot"), ("C", "y")].lookup name)
        (.mapping [("$A_B", .mapping [("k", .scalar (.string "$\x7bC\x7d"))])])).asked =
          ["A_B", "A", "C"] ∧
      (ofTable [("hot_B", .bool true)]).reduce .last
          (some fun name => [("A", "hot"), ("C", "y"), ("D", "z")].lookup name)
          (.mapping [("$A_B", .mapping [("k", .scalar (.string "$\x7bC\x7d"))])]) =
        (ofTable [("hot_B", .bool true)]).reduce .last
          (some fun name => [("A", "hot"), ("C", "y")].lookup name)
          (.mapping [("$A_B", .mapping [("k", .scalar (.string "$\x7bC\x7d"))])]) := by
  have hasked : ((ofTable [("hot_B", .bool true)]).reduce .last
      (some fun name => [("A", "hot"), ("C", "y")].lookup name)
      (.mapping [("$A_B", .mapping [("k", .scalar (.string "$\x7bC\x7d"))])])).asked =
      ["A_B", "A", "C"] := by
    have hx : ((ofTable [("hot_B", .bool true)]).expandKeys
        (some fun name => [("A", "hot"), ("C", "y")].lookup name)
        [("$A_B", .mapping [("k", .scalar (.string "$\x7bC\x7d"))])]).outcome =
        .ok [("hot_B", .mapping [("k", .scalar (.string "$\x7bC\x7d"))])] := by
      rw [expandKeys_eq]
      cbv
    have hc : ((ofTable [("hot_B", .bool true)]).collapse .last
        [("hot_B", .mapping [("k", .scalar (.string "$\x7bC\x7d"))])]).outcome =
        .ok (.mapping [("k", .scalar (.string "$\x7bC\x7d"))]) := by
      refine collapse_ok_iff.2 (.inr ⟨_, by cbv, by cbv, .inl ⟨_, rfl, ?_⟩⟩)
      exact collapse_ok_iff.2 (.inl ⟨by cbv, rfl⟩)
    rw [reduce_mapping_eq_bind, Traced.asked_bind_of_ok hx, Traced.asked_bind_of_ok hc,
      collapse_asked, expandKeys_eq]
    simp only [reducePlain, reduceEntries_eq_mapM]
    cbv
  refine ⟨hasked, reduce_eq_of_answers_eq fun name hn => ?_⟩
  rw [hasked] at hn
  simp only [List.mem_cons, List.not_mem_nil, or_false] at hn
  obtain rfl | rfl | rfl := hn <;> rfl

end Engine

end GuardTree
