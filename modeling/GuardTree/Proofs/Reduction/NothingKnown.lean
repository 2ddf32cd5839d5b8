import GuardTree.CommandLine.Run
import GuardTree.Proofs.Reduction.Runs

/-! # Where no name has a value

A resolver that knows no name is looked up in vain at every placeholder and at every beginning of
its name, and then the expansion fails. Without a resolver it fails at once. So both runs stop at
the first placeholder they meet, and until then they do the same.

* `Traced.SettlesAlike`: two runs come to the same end, but for why a placeholder has no
  replacement.
* `reduce_settlesAlike`: a reduction without a resolver and one with a resolver that knows nothing.
-/

namespace GuardTree

set_option autoImplicit false

/-- The same failure, save for the reason why a placeholder has no replacement. -/
inductive Failure.SameButReason : Failure → Failure → Prop
  | refl (f : Failure) : SameButReason f f
  | expansion (p : Placeholder) (reason reason' : NoValue) :
      SameButReason (.expansion p reason) (.expansion p reason')

namespace Traced

variable {α β : Type}

/-- Both runs have the same result, or both fail, in the same way but for the reason. -/
inductive SettlesAlike (x y : Traced α) : Prop
  | ok {a : α} (hx : x.outcome = .ok a) (hy : y.outcome = .ok a)
  | error {f g : Failure} (hx : x.outcome = .error f) (hy : y.outcome = .error g)
      (h : f.SameButReason g)

namespace SettlesAlike

theorem refl (x : Traced α) : SettlesAlike x x := by
  obtain ⟨a, ha⟩ | ⟨f, hf⟩ := x.ok_or_error
  · exact .ok ha ha
  · exact .error hf hf (.refl f)

theorem bind {x y : Traced α} {k l : α → Traced β} (h : SettlesAlike x y)
    (hk : ∀ a, x.outcome = .ok a → SettlesAlike (k a) (l a)) :
    SettlesAlike (x >>= k) (y >>= l) := by
  cases h with
  | ok hx hy =>
    cases hk _ hx with
    | ok hk hl => exact .ok (bind_outcome_eq_ok.2 ⟨_, hx, hk⟩) (bind_outcome_eq_ok.2 ⟨_, hy, hl⟩)
    | error hk hl hfg =>
      refine .error ?_ ?_ hfg
      · rw [bind_ok hx, hk]
      · rw [bind_ok hy, hl]
  | error hx hy hfg =>
    refine .error ?_ ?_ hfg
    · rw [bind_error hx]
    · rw [bind_error hy]

theorem mapM {f g : α → Traced β} {xs : List α} (h : ∀ a ∈ xs, SettlesAlike (f a) (g a)) :
    SettlesAlike (xs.mapM f) (xs.mapM g) := by
  induction xs with
  | nil => exact refl _
  | cons a xs ih =>
    rw [List.forall_mem_cons] at h
    rw [List.mapM_cons, List.mapM_cons]
    refine h.1.bind fun _ _ => ?_
    exact (ih h.2).bind fun _ _ => refl _

end SettlesAlike

end Traced

/-! ## Expansion -/

namespace Placeholder

variable {r : Resolver}

theorem fallBack_of_unknown (hr : ∀ name, r name = none) (name : String)
    (ways : List (List Char × List Char)) : (fallBack r name ways).outcome = .ok none := by
  induction ways with
  | nil => rfl
  | cons way others ih =>
    obtain ⟨known, rest⟩ := way
    rw [fallBack, Traced.bind_ok (a := none) (congrArg Except.ok (hr _))]
    exact ih

theorem lookUp_of_unknown (hr : ∀ name, r name = none) (p : Placeholder) :
    (lookUp r p).outcome = .ok none := by
  rw [lookUp, Traced.bind_ok (a := none) (congrArg Except.ok (hr _))]
  cases p.braced with
  | true => rfl
  | false => exact fallBack_of_unknown hr ..

/-- No replacement is found for the placeholder, for one reason or the other. -/
theorem resolve_settlesAlike (hr : ∀ name, r name = none) (p : Placeholder) :
    (resolve none p).SettlesAlike (resolve (some r) p) := by
  have hfail : (resolve (some r) p).outcome = .error (.expansion p .unknown) := by
    rw [resolve, Traced.bind_ok (lookUp_of_unknown hr p)]
    rfl
  exact .error rfl hfail (.expansion p .noResolver .unknown)

theorem resolveAll_settlesAlike (hr : ∀ name, r name = none) (known : Table)
    (ps : List Placeholder) :
    (resolveAll none known ps).SettlesAlike (resolveAll (some r) known ps) := by
  induction ps generalizing known with
  | nil => exact .refl _
  | cons p ps ih =>
    rw [resolveAll, resolveAll]
    split
    · exact ih known
    · exact (resolve_settlesAlike hr p).bind fun value _ => ih _

theorem expand_settlesAlike (hr : ∀ name, r name = none) (text : String) :
    (expand none text).SettlesAlike (expand (some r) text) :=
  (resolveAll_settlesAlike hr [] _).bind fun _ _ => .refl _

end Placeholder

/-! ## Reduction -/

namespace Engine

variable {e : Engine} {policy : Policy} {r : Resolver}

theorem renameEntry_settlesAlike (hr : ∀ name, r name = none) (entry : String × Node) :
    (renameEntry none entry).SettlesAlike (renameEntry (some r) entry) :=
  (Placeholder.expand_settlesAlike hr _).bind fun _ _ => .refl _

theorem expandKeys_settlesAlike (hr : ∀ name, r name = none) (entries : List (String × Node)) :
    (e.expandKeys none entries).SettlesAlike (e.expandKeys (some r) entries) := by
  unfold expandKeys
  split
  · refine .bind (.mapM fun entry _ => renameEntry_settlesAlike hr entry) fun _ _ => ?_
    exact .refl _
  · exact .refl _

theorem expandValue_settlesAlike (hr : ∀ name, r name = none) (entry : String × Node) :
    (expandValue none entry).SettlesAlike (expandValue (some r) entry) := by
  unfold expandValue
  split
  · exact (Placeholder.expand_settlesAlike hr _).bind fun _ _ => .refl _
  · exact .refl _

theorem expandValues_settlesAlike (hr : ∀ name, r name = none) (entries : List (String × Node)) :
    (expandValues none entries).SettlesAlike (expandValues (some r) entries) :=
  .mapM fun entry _ => expandValue_settlesAlike hr entry

theorem reduceValue_settlesAlike {key : String} {n : Node}
    (h : (e.reduce policy none n).SettlesAlike (e.reduce policy (some r) n)) :
    (e.reduceValue policy none key n).SettlesAlike (e.reduceValue policy (some r) key n) := by
  cases n with
  | mapping entries =>
    rw [reduceValue, reduceValue]
    exact (Traced.SettlesAlike.refl _).bind fun _ _ => h
  | scalar leaf =>
    rw [reduceValue_of_entries?_eq_none rfl, reduceValue_of_entries?_eq_none rfl]
    exact .refl _
  | list items =>
    rw [reduceValue_of_entries?_eq_none rfl, reduceValue_of_entries?_eq_none rfl]
    exact .refl _

theorem reduceEntries_settlesAlike {entries : List (String × Node)}
    (h : ∀ entry ∈ entries,
      (e.reduce policy none entry.2).SettlesAlike (e.reduce policy (some r) entry.2)) :
    (e.reduceEntries policy none entries).SettlesAlike
      (e.reduceEntries policy (some r) entries) := by
  rw [reduceEntries_eq_mapM, reduceEntries_eq_mapM]
  refine .mapM fun entry he => ?_
  exact (reduceValue_settlesAlike (h entry he)).bind fun _ _ => .refl _

theorem reduce_settlesAlike (hr : ∀ name, r name = none) (n : Node) :
    (e.reduce policy none n).SettlesAlike (e.reduce policy (some r) n) := by
  induction n using reduce_induction e policy none with
  | leaf n hn =>
    rw [reduce_of_entries?_eq_none hn, reduce_of_entries?_eq_none hn]
    exact .refl _
  | mapping entries ih =>
    rw [reduce_mapping_eq_bind, reduce_mapping_eq_bind]
    refine (expandKeys_settlesAlike hr entries).bind fun expanded hx => ?_
    -- Guards are decided without a lookup, so this step is the same run.
    refine (Traced.SettlesAlike.refl _).bind fun n hc => ?_
    cases n with
    | mapping plain =>
      refine (expandValues_settlesAlike hr plain).bind fun values hv => ?_
      refine .bind (reduceEntries_settlesAlike fun entry he => ?_) fun _ _ => .refl _
      exact ih expanded plain values hx hc hv entry he
    | _ => exact .refl _

end Engine

/-! ## Sessions and the command line -/

theorem Session.reduce_settlesAlike {r : Resolver} (hr : ∀ name, r name = none) (s : Session) :
    (s.reduce none).SettlesAlike (s.reduce (some r)) := by
  obtain ⟨engine, policy, data, stage⟩ := s
  unfold reduce
  cases stage with
  | reduced => exact .refl _
  | unreduced =>
    cases data with
    | scalar => exact .refl _
    | list => exact .refl _
    | mapping entries =>
      cases entries with
      | nil => exact .refl _
      | cons entry entries =>
        -- The record at the start tells whether there is a resolver; its result does not.
        refine .bind (.ok (a := ()) rfl rfl) fun _ _ => ?_
        exact (Engine.reduce_settlesAlike hr _).bind fun _ _ => .refl _

theorem Traced.SettlesAlike.after_note {α : Type} {x y : Traced α} (h : SettlesAlike x y)
    (record : Record) : SettlesAlike (note record >>= fun _ => x) y := by
  cases h with
  | ok hx hy => exact .ok (bind_outcome_eq_ok.2 ⟨(), rfl, hx⟩) hy
  | error hx hy hfg =>
    refine .error ?_ hy hfg
    rw [bind_ok (a := ()) rfl, hx]

namespace CommandLine

theorem Sources.resolver_eq_none {sources : Sources} (h : sources.isConfigured = false)
    (environment : Resolver) (name : String) : sources.resolver environment name = none := by
  obtain ⟨henv, hgiven⟩ : sources.useEnvironment = false ∧ sources.given.isEmpty = true := by
    simpa [isConfigured] using h
  have hlist : sources.given.toList = [] := by
    simpa [OrderedMap.isEmpty, OrderedMap.toList] using hgiven
  rw [resolver, OrderedMap.get?_eq_lookup, hlist, henv]
  rfl

/-- Going without a resolver where no source is configured is like taking the sources as they
are. -/
theorem reduceWith_settlesAlike (sources : Sources) (environment : Resolver) (s : Session) :
    (reduceWith sources environment s).SettlesAlike
      (s.reduce (some (sources.resolver environment))) := by
  unfold reduceWith
  refine Traced.SettlesAlike.after_note ?_ _
  cases hc : sources.isConfigured with
  | true => exact .refl _
  | false => exact s.reduce_settlesAlike (Sources.resolver_eq_none hc environment)

end CommandLine

namespace Engine

/-- **No resolver is as good as one that knows nothing.** With either, a reduction has the same
result or fails in the same way, at the same placeholder, and only the reason for that placeholder
differs. So it does not matter that the command line goes without a resolver if no source of values
is configured. -/
theorem reduce_without_resolver {r : Resolver} (hr : ∀ name, r name = none) :
    (∀ (e : Engine) (policy : Policy) (n : Node),
      (e.reduce policy none n).SettlesAlike (e.reduce policy (some r) n)) ∧
    ∀ (sources : CommandLine.Sources) (environment : Resolver) (s : Session),
      (CommandLine.reduceWith sources environment s).SettlesAlike
        (s.reduce (some (sources.resolver environment))) :=
  ⟨fun _ _ n => reduce_settlesAlike hr n, CommandLine.reduceWith_settlesAlike⟩

/-- The resolver is asked for `A_B` and for `A` before the key is given up. -/
theorem reduce_without_resolver_key :
    ((ofTable []).reduce .last none (.mapping [("$A_B", .null)])).SettlesAlike
        ((ofTable []).reduce .last (some fun _ => none) (.mapping [("$A_B", .null)])) ∧
      ((ofTable []).reduce .last none (.mapping [("$A_B", .null)])).asked = [] ∧
      ((ofTable []).reduce .last (some fun _ => none) (.mapping [("$A_B", .null)])).asked =
        ["A_B", "A"] := by
  refine ⟨(reduce_without_resolver fun _ => rfl).1 _ _ _, ?_, ?_⟩
  · have hx : ((ofTable []).expandKeys none [("$A_B", .null)]).outcome =
        .error (.expansion ⟨"A_B", false⟩ .noResolver) := by
      rw [expandKeys_eq]
      cbv
    rw [reduce_mapping_eq_bind, Traced.asked_bind_of_error hx, expandKeys_eq]
    cbv
  · have hx : ((ofTable []).expandKeys (some fun _ => none) [("$A_B", .null)]).outcome =
        .error (.expansion ⟨"A_B", false⟩ .unknown) := by
      rw [expandKeys_eq]
      cbv
    rw [reduce_mapping_eq_bind, Traced.asked_bind_of_error hx, expandKeys_eq]
    cbv

end Engine

end GuardTree
