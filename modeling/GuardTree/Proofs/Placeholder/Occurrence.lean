import GuardTree.Proofs.Placeholder.Substitution
import Mathlib

/-! # Where a text has placeholders

No placeholder goes on past a `$`, so what can be cut off after a `$` is a placeholder of the whole
text, whatever stands before it (`occursIn_of_cut?`). An expansion succeeds exactly if everything is
found (`expand_ok_iff`), and then leaves no placeholder behind, unless a `$` stood alone or was put
in with a value (`not_occursIn_of_expand`).
-/

namespace GuardTree.Placeholder

set_option autoImplicit false

open Text

variable {r : Resolver} {p : Placeholder}

/-! ## Occurrence -/

theorem occursIn_iff {text : String} :
    occursIn text = true ↔ ∃ p, .placeholder p ∈ pieces text.toList := by
  rw [occursIn, Bool.not_eq_true', List.isEmpty_eq_false_iff_exists_mem]
  exact exists_congr fun p => mem_all_iff

theorem separates_dollar : Separates '$' := by decide

theorem mem_pieces_of_cut? {cs rest : List Char} (h : cut? cs = some (p, rest))
    (before : List Char) : .placeholder p ∈ pieces (before ++ '$' :: cs) := by
  rw [pieces_append separates_dollar, pieces_placeholder h]
  exact List.mem_append_right _ List.mem_cons_self

theorem occursIn_of_cut? {text : String} {before cs rest : List Char}
    (ht : text.toList = before ++ '$' :: cs) (h : cut? cs = some (p, rest)) :
    occursIn text = true :=
  occursIn_iff.2 ⟨p, ht ▸ mem_pieces_of_cut? h before⟩

theorem pieces_of_not_mem {cs : List Char} (h : '$' ∉ cs) : pieces cs = cs.map .literal := by
  have hpieces := pieces_append_of_not_mem h []
  rwa [List.append_nil, pieces, List.append_nil] at hpieces

theorem not_occursIn_of_not_mem {text : String} (h : '$' ∉ text.toList) :
    occursIn text = false := by
  rw [← Bool.not_eq_true, occursIn_iff]
  rintro ⟨p, hp⟩
  simp [pieces_of_not_mem h] at hp

/-! ## Expansion -/

theorem resolve_ok_iff {v : String} : (resolve (some r) p).outcome = .ok v ↔ found? r p = some v := by
  refine ⟨fun h => ?_, resolve_outcome⟩
  rw [resolve, Traced.bind_ok (lookUp_outcome p)] at h
  cases hf : found? r p with
  | none =>
    rw [hf] at h
    cases h
  | some value =>
    rw [hf] at h
    cases h
    rfl

theorem resolve_error_iff {f : Failure} :
    (resolve (some r) p).outcome = .error f ↔ found? r p = none ∧ f = .expansion p .unknown := by
  rw [resolve, Traced.bind_ok (lookUp_outcome p)]
  cases found? r p with
  | some v => simp [Traced.note, Traced.bind_ok, pure, Traced.pure]
  | none => simp [Traced.fail, eq_comm]

theorem found?_of_resolveAll {known table : Table} {ps : List Placeholder}
    (h : (resolveAll (some r) known ps).outcome = .ok table) :
    ∀ p ∈ ps, (known.lookup p).isSome ∨ (found? r p).isSome := by
  induction ps generalizing known with
  | nil => simp
  | cons p ps ih =>
    rw [resolveAll] at h
    split at h
    case isTrue hp => exact List.forall_mem_cons.2 ⟨.inl hp, ih h⟩
    case isFalse =>
      obtain ⟨v, hv, h⟩ := Traced.bind_outcome_eq_ok.1 h
      have hfound : (found? r p).isSome := by
        rw [resolve_ok_iff.1 hv]
        rfl
      refine List.forall_mem_cons.2 ⟨.inr hfound, fun q hq => ?_⟩
      obtain hknown | hq := ih h q hq
      · rw [List.lookup_cons] at hknown
        split at hknown
        case h_1 heq =>
          rw [eq_of_beq heq]
          exact .inr hfound
        case h_2 => exact .inl hknown
      · exact .inr hq

/-- An expansion succeeds exactly if everything is found. -/
theorem expand_ok_iff {text result : String} :
    (expand (some r) text).outcome = .ok result ↔
      (∀ p ∈ all text, (found? r p).isSome) ∧
        result = String.ofList (substituted r text.toList) := by
  constructor
  · intro h
    have hfound : ∀ p ∈ all text, (found? r p).isSome := by
      rw [expand] at h
      obtain ⟨table, ht, -⟩ := Traced.bind_outcome_eq_ok.1 h
      intro p hp
      simpa using found?_of_resolveAll ht p hp
    rw [expand_outcome hfound] at h
    exact ⟨hfound, (Except.ok.inj h).symm⟩
  · rintro ⟨hfound, rfl⟩
    exact expand_outcome hfound

theorem resolveAll_error_iff {known : Table} {ps : List Placeholder} (hk : known.Agrees r)
    {f : Failure} :
    (resolveAll (some r) known ps).outcome = .error f ↔
      ∃ p, ps.find? (fun p => (found? r p).isNone) = some p ∧ f = .expansion p .unknown := by
  induction ps generalizing known with
  | nil => simp [resolveAll, pure, Traced.pure]
  | cons p ps ih =>
    rw [resolveAll]
    split
    case isTrue hknown =>
      obtain ⟨v, hv⟩ := Option.isSome_iff_exists.1 hknown
      rw [ih hk, List.find?_cons_of_neg (by rw [hk p v hv]; exact Bool.false_ne_true)]
    case isFalse =>
      cases hf : found? r p with
      | none =>
        have herror := resolve_error_iff.2 ⟨hf, rfl⟩
        rw [Traced.bind_error herror, List.find?_cons_of_pos (by rw [hf]; rfl)]
        simp [eq_comm]
      | some v =>
        rw [Traced.bind_ok (resolve_outcome hf), ih (hk.cons hf),
          List.find?_cons_of_neg (by rw [hf]; exact Bool.false_ne_true)]

/-- An expansion fails at the first placeholder for which nothing is found. -/
theorem expand_error_iff {text : String} {f : Failure} :
    (expand (some r) text).outcome = .error f ↔
      ∃ p, (all text).find? (fun p => (found? r p).isNone) = some p ∧ f = .expansion p .unknown := by
  rw [expand, Traced.outcome_bind_pure, Traced.map_eq_error_iff,
    resolveAll_error_iff Table.agrees_nil]

theorem expand_of_not_occursIn {text : String} (h : occursIn text = false) (r : Option Resolver) :
    expand r text = pure text := by
  have hall : all text = [] := by simpa [occursIn] using h
  have hliteral : ∀ piece ∈ pieces text.toList, Piece.replace [] piece = Piece.spell piece := by
    intro piece hp
    cases piece with
    | literal c => rfl
    | placeholder p =>
      have hmem := mem_all_iff.2 hp
      rw [hall] at hmem
      cases hmem
  rw [expand, hall, resolveAll, pure_bind, List.flatMap_def, List.map_congr_left hliteral,
    ← List.flatMap_def, spell_pieces, String.ofList_toList]

/-! ## Nothing is left -/

/-- The values of a resolver have no `$`. -/
def DollarFree (r : Resolver) : Prop := ∀ name v, r name = some v → '$' ∉ v.toList

/-- Every `$` of a text starts a placeholder. -/
def Tidy (text : String) : Prop := .literal '$' ∉ pieces text.toList

theorem tidy_of_not_mem {text : String} (h : '$' ∉ text.toList) : Tidy text := by
  rw [Tidy, pieces_of_not_mem h]
  intro hm
  obtain ⟨c, hc, heq⟩ := List.mem_map.1 hm
  cases heq
  exact h hc

theorem tidy_of_cut? {text : String} {cs : List Char} (ht : text.toList = '$' :: cs)
    (h : cut? cs = some (p, [])) : Tidy text := by
  simp [Tidy, ht, pieces_placeholder h, pieces]

theorem mem_of_mem_cuts {before cs known rest : List Char} (h : (known, rest) ∈ cuts before cs) :
    ∀ c ∈ rest, c ∈ cs := by
  induction cs generalizing before with
  | nil => cases h
  | cons d cs ih =>
    rw [cuts, List.mem_append] at h
    obtain h | h := h
    · exact fun c hc => List.mem_cons_of_mem _ (ih h c hc)
    · split at h
      · cases List.mem_singleton.1 h
        exact fun c hc => hc
      · cases h

theorem not_mem_fallBack (hr : DollarFree r) {name v : String}
    {ways : List (List Char × List Char)} (hw : ∀ way ∈ ways, '$' ∉ way.2)
    (h : (fallBack r name ways).outcome = .ok (some v)) : '$' ∉ v.toList := by
  induction ways with
  | nil => cases h
  | cons way ways ih =>
    obtain ⟨known, rest⟩ := way
    rw [List.forall_mem_cons] at hw
    rw [fallBack, Traced.bind_ok (a := r (String.ofList known)) rfl] at h
    cases hk : r (String.ofList known) with
    | none =>
      rw [hk] at h
      exact ih hw.2 h
    | some value =>
      rw [hk] at h
      cases h
      rw [String.toList_append, String.toList_ofList, List.mem_append, not_or]
      exact ⟨hr _ _ hk, hw.1⟩

theorem not_mem_found? (hr : DollarFree r) {v : String} (hp : '$' ∉ p.name.toList)
    (h : found? r p = some v) : '$' ∉ v.toList := by
  have hl := lookUp_outcome (r := r) p
  rw [h, lookUp, Traced.bind_ok (a := r p.name) rfl] at hl
  cases hv : r p.name with
  | some value =>
    rw [hv] at hl
    cases hl
    exact hr _ _ hv
  | none =>
    rw [hv] at hl
    cases hb : p.braced with
    | true =>
      rw [hb] at hl
      cases hl
    | false =>
      rw [hb] at hl
      refine not_mem_fallBack hr (fun way hw hd => hp ?_) hl
      exact mem_of_mem_cuts hw _ hd

theorem isWordChar_of_mem_wordOf {cs : List Char} {c : Char} (h : c ∈ wordOf cs) :
    isWordChar c = true :=
  List.all_eq_true.1 List.all_takeWhile c h

theorem head?_ne_brace {w : List Char} (h : ∀ c ∈ w, isWordChar c = true) :
    w.head? ≠ some '\x7b' := fun hhead =>
  absurd (h _ (List.mem_of_head? hhead)) (by decide)

theorem isWordChar_of_cut? {cs rest : List Char} (h : cut? cs = some (p, rest)) :
    ∀ c ∈ p.name.toList, isWordChar c = true := by
  unfold cut? at h
  split at h
  · split at h
    · cases h
    · split at h <;> cases h
      simpa using fun c => isWordChar_of_mem_wordOf
  · split at h <;> cases h
    simpa using fun c => isWordChar_of_mem_wordOf

theorem isWordChar_of_mem_pieces {cs : List Char} (h : .placeholder p ∈ pieces cs) :
    ∀ c ∈ p.name.toList, isWordChar c = true := by
  fun_induction pieces cs with
  | case1 => cases h
  | case2 r q rest hc ih =>
    obtain heq | h := List.mem_cons.1 h
    · cases heq
      exact isWordChar_of_cut? hc
    · exact ih h
  | case3 r hc ih =>
    obtain heq | h := List.mem_cons.1 h
    · cases heq
    · exact ih h
  | case4 c r hc ih =>
    obtain heq | h := List.mem_cons.1 h
    · cases heq
    · exact ih h

/-- What is put in for a placeholder of a text has no `$`. -/
theorem not_mem_substitute (hr : DollarFree r) {cs : List Char}
    (hp : .placeholder p ∈ pieces cs) : '$' ∉ (Piece.placeholder p).substitute r := by
  have hname : '$' ∉ p.name.toList := fun hmem =>
    absurd (isWordChar_of_mem_pieces hp _ hmem) (by decide)
  rw [Piece.substitute]
  cases hf : found? r p with
  | none => exact List.not_mem_nil
  | some v => exact not_mem_found? hr hname hf

theorem not_mem_substituted (hr : DollarFree r) {text : String} (ht : Tidy text) :
    '$' ∉ substituted r text.toList := by
  rw [substituted, List.mem_flatMap]
  rintro ⟨piece, hm, hd⟩
  cases piece with
  | literal c =>
    obtain rfl := List.mem_singleton.1 hd
    exact ht hm
  | placeholder p => exact not_mem_substitute hr hm hd

/-- An expansion without stray `$` leaves no placeholder behind. -/
theorem not_occursIn_of_expand (hr : DollarFree r) {text result : String} (ht : Tidy text)
    (h : (expand (some r) text).outcome = .ok result) : occursIn result = false := by
  obtain ⟨-, rfl⟩ := expand_ok_iff.1 h
  refine not_occursIn_of_not_mem ?_
  rw [String.toList_ofList]
  exact not_mem_substituted hr ht

end GuardTree.Placeholder
