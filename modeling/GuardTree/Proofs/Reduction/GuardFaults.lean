import GuardTree.Proofs.Formula.Faults
import GuardTree.Proofs.Formula.GuardShape
import GuardTree.Proofs.Reduction.Choice

/-! # Why a guard cannot be evaluated

The guards of a guarded mapping have all been read, so they fail for their values
(`select_formula_fault`), or for a placeholder. A placeholder that the lexer sees is reported before
the evaluation, with the exception of those whose name is not made of word characters
(`select_reads_superscript`).
-/

namespace GuardTree

set_option autoImplicit false

open Text

namespace Engine

variable {e : Engine} {policy : Policy} {entries : List (String × Node)} {key : String}
  {f : Failure}

/-! ## Where a failure comes from -/

theorem holds_error (h : (e.holds key).outcome = .error f) :
    (e.hasPlaceholder key = true ∧ f = .unresolvedGuardVariable key) ∨
      (∃ err, e.evaluate key = .error err ∧ f = .formula key err) ∨
      ∃ v, e.evaluate key = .ok v ∧ f = .nonBooleanGuard key v := by
  cases holds_error_iff.1 h with
  | placeholder hp => exact .inl ⟨hp, rfl⟩
  | evaluation _ he => exact .inr (.inl ⟨_, he, rfl⟩)
  | value _ he _ => exact .inr (.inr ⟨_, he, rfl⟩)

theorem candidates_error {keys : List String} (h : (e.candidates keys).outcome = .error f) :
    ∃ key ∈ keys, (e.takesPart key).outcome = .error f := by
  induction keys with
  | nil => cases h
  | cons key keys ih =>
    rw [candidates] at h
    obtain h | ⟨_, _, h⟩ := Traced.bind_outcome_eq_error h
    · exact ⟨key, List.mem_cons_self, h⟩
    · obtain h | ⟨_, _, h⟩ := Traced.bind_outcome_eq_error h
      · obtain ⟨other, hm, ho⟩ := ih h
        exact ⟨other, List.mem_cons_of_mem _ hm, ho⟩
      · cases h

theorem select_error (h : (e.select policy entries).outcome = .error f) :
    f = .noGuardSatisfied entries ∨
      ∃ key ∈ entries.map Prod.fst, (e.takesPart key).outcome = .error f := by
  rw [select] at h
  obtain h | ⟨cs, _, h⟩ := Traced.bind_outcome_eq_error h
  · exact .inr (candidates_error h)
  · dsimp only at h
    split at h
    · cases h
      exact .inl rfl
    · obtain h | ⟨_, _, h⟩ := Traced.bind_outcome_eq_error h
      · cases h
      · cases h

theorem select_cons_of_error {value : Node} (h : (e.takesPart key).outcome = .error f) :
    (e.select policy ((key, value) :: entries)).outcome = .error f := by
  have hcandidates : (e.candidates (((key, value) :: entries).map Prod.fst)).outcome =
      .error f := by
    rw [List.map_cons, candidates, Traced.bind_error h]
  rw [select, Traced.bind_error hcandidates]

theorem takesPart_of_evaluate {err : Formula.Error} (hne : key ≠ otherwiseKey)
    (hp : e.hasPlaceholder key = false) (h : e.evaluate key = .error err) :
    (e.takesPart key).outcome = .error (.formula key err) := by
  rw [takesPart, if_neg hne, holds, hp, h]
  rfl

/-! ## Guard expressions -/

theorem exists_parse_of_isGuard (h : formulas.isGuard key = true) (hne : key ≠ otherwiseKey) :
    ∃ e, Formula.parse key = .ok e := by
  cases hp : Formula.parse key with
  | ok e => exact ⟨e, rfl⟩
  | error fault =>
    have hverdict : formulas.isGuard key = (classifyFormula key).isGuard := rfl
    rw [hverdict, classifyFormula, if_neg hne, hp] at h
    cases h

/-- The evaluation of an expression that can be read fails for values, or for a placeholder. -/
theorem evaluate_fails {err : Formula.Error} (hp : ∃ e, Formula.parse key = .ok e)
    (h : Formula.evaluate key = .error err) :
    err.source = key ∧ ∃ ls, Formula.tokenize key = .ok ls ∧
      (err.fault.OfValues ∨ ∃ name, err.fault = .unresolvedVariable name ∧
        .var name ∈ ls.map Formula.Lexeme.token) := by
  obtain ⟨e, he⟩ := hp
  obtain ⟨ls, hls, hparse⟩ := Formula.parse_eq_ok_iff.1 he
  obtain ⟨n, -, hd⟩ := Formula.derives_of_parseTokens hparse
  rw [Formula.evaluate, he] at h
  split at h
  case h_1 => cases h
  case h_2 fault hfault =>
    cases h
    exact ⟨rfl, ls, hls, hd.fails fault hfault⟩

theorem isGuarded_singleton {expr : Formula.Expr} {value : Node}
    (hp : Formula.parse key = .ok expr) (hl : expr.isLogical = true) :
    (formulas.isGuarded [(key, value)]).outcome = .ok true := by
  refine isGuarded_ok_true_iff.2 ⟨List.cons_ne_nil _ _, fun entry hm => ?_⟩
  obtain rfl := List.mem_singleton.1 hm
  rw [Formula.isGuard_of_parse hp, hl, Bool.or_true]

theorem takesPart_of_var {ls : List Formula.Lexeme} {name : String}
    (hls : Formula.tokenize key = .ok ls) (hm : .var name ∈ ls.map Formula.Lexeme.token)
    (hw : ∀ c ∈ name.toList, isWordChar c = true) :
    (formulas.takesPart key).outcome = .error (.unresolvedGuardVariable key) := by
  have hp : Placeholder.occursIn key = true := Formula.occursIn_of_mem_lexemes hls hm hw
  have hne : key ≠ otherwiseKey := by
    rintro rfl
    have helse : Placeholder.occursIn otherwiseKey = false := by cbv
    rw [helse] at hp
    cases hp
  have hnoticed : formulas.hasPlaceholder key = true := hp
  rw [takesPart, if_neg hne, holds, if_pos hnoticed]
  rfl

/-- **Guards are read before they are evaluated.** If an expression fails while a guarded mapping is
decided, it is one of the keys, and it can be read. Either its values do not fit, or it has a
placeholder whose name is not made of word characters. A guard with any other placeholder is reported
to have one. -/
theorem select_formula_fault (policy : Policy)
    (hg : (formulas.isGuarded entries).outcome = .ok true) :
    (∀ guard err, (formulas.select policy entries).outcome = .error (.formula guard err) →
      guard ∈ entries.map Prod.fst ∧ err.source = guard ∧
        ∃ ls, Formula.tokenize guard = .ok ls ∧
          (err.fault.OfValues ∨
            ∃ name, err.fault = .unresolvedVariable name ∧
              .var name ∈ ls.map Formula.Lexeme.token ∧
              ∃ c ∈ name.toList, isNameChar c = true ∧ isWordChar c = false)) ∧
      ∀ guard ∈ entries.map Prod.fst, ∀ ls name, Formula.tokenize guard = .ok ls →
        .var name ∈ ls.map Formula.Lexeme.token → (∀ c ∈ name.toList, isWordChar c = true) →
        (formulas.takesPart guard).outcome = .error (.unresolvedGuardVariable guard) := by
  constructor
  · intro guard err h
    obtain h | ⟨key, hm, h⟩ := select_error h
    · cases h
    have hne : key ≠ otherwiseKey := by
      intro heq
      rw [takesPart, if_pos heq] at h
      cases h
    rw [takesPart, if_neg hne] at h
    obtain ⟨-, hf⟩ | ⟨err', herr, hf⟩ | ⟨_, _, hf⟩ := holds_error h
    · cases hf
    · cases hf
      have hguards : ∀ key ∈ entries.map Prod.fst, formulas.isGuard key = true :=
        List.forall_mem_map.2 (isGuarded_ok_true_iff.1 hg).2
      have hread := exists_parse_of_isGuard (hguards _ hm) hne
      obtain ⟨hsource, ls, hls, hfault⟩ := evaluate_fails hread herr
      refine ⟨hm, hsource, ls, hls, hfault.imp_right ?_⟩
      rintro ⟨name, hname, hvar⟩
      refine ⟨name, hname, hvar, ?_⟩
      by_contra hall
      -- Otherwise the placeholder would have been noticed.
      have hw : ∀ c ∈ name.toList, isWordChar c = true := by
        intro c hc
        by_contra hword
        exact hall ⟨c, hc, Formula.isNameChar_of_mem_lexemes hls hvar c hc, by simpa using hword⟩
      have hnoticed := takesPart_of_var hls hvar hw
      rw [takesPart, if_neg hne, h] at hnoticed
      cases hnoticed
    · cases hf
  · intro guard _ ls name hls hvar hw
    exact takesPart_of_var hls hvar hw

/-- A boolean cannot be compared with a number. -/
theorem select_formula_fault_comparison :
    (formulas.isGuarded [("true>1", .null)]).outcome = .ok true ∧
      ∃ err, (formulas.select .last [("true>1", .null)]).outcome = .error (.formula "true>1" err) ∧
        err.source = "true>1" ∧ ∃ ls, Formula.tokenize "true>1" = .ok ls ∧
          (err.fault.OfValues ∨
            ∃ name, err.fault = .unresolvedVariable name ∧
              .var name ∈ ls.map Formula.Lexeme.token ∧
              ∃ c ∈ name.toList, isNameChar c = true ∧ isWordChar c = false) := by
  have hs : Formula.Cuts "true>1".toList [.token .true ['t', 'r', 'u', 'e'], .token .gt ['>'],
      .token (.int 1) ['1']] := by
    refine .token (t := ⟨.true, ['r', 'u', 'e'], ['>', '1']⟩) rfl rfl ?_
    refine .token (t := ⟨.gt, [], ['1']⟩) rfl rfl ?_
    exact .token (t := ⟨.int 1, [], []⟩) rfl rfl .nil
  have hparse := Formula.parse_of_compares hs rfl .true .gt (.int 1)
  have hg : (formulas.isGuarded [("true>1", .null)]).outcome = .ok true :=
    isGuarded_singleton hparse rfl
  have hvalue : formulas.evaluate "true>1" =
      .error ⟨"true>1", .type (.cannotOrder .bool .int)⟩ := Formula.evaluate_of_parse hparse rfl
  have hselect : (formulas.select .last [("true>1", .null)]).outcome =
      .error (.formula "true>1" ⟨"true>1", .type (.cannotOrder .bool .int)⟩) :=
    select_cons_of_error (takesPart_of_evaluate (by decide) (by cbv) hvalue)
  obtain ⟨-, hrest⟩ := (select_formula_fault .last hg).1 _ _ hselect
  exact ⟨hg, _, hselect, hrest⟩

set_option maxRecDepth 10000 in
/-- The name `²` is a number, but no word character: nothing notices the placeholder before the
evaluation. -/
theorem select_reads_superscript :
    (formulas.isGuarded [("$²>1", .null)]).outcome = .ok true ∧
      (formulas.select .last [("$²>1", .null)]).outcome =
        .error (.formula "$²>1" ⟨"$²>1", .unresolvedVariable "²"⟩) := by
  have hs : Formula.Cuts "$²>1".toList [.token (.var "²") ['$', '²'], .token .gt ['>'],
      .token (.int 1) ['1']] := by
    refine .token (t := ⟨.var "²", ['²'], ['>', '1']⟩) rfl rfl ?_
    refine .token (t := ⟨.gt, [], ['1']⟩) rfl rfl ?_
    exact .token (t := ⟨.int 1, [], []⟩) rfl rfl .nil
  have hparse := Formula.parse_of_compares hs rfl (.var "²") .gt (.int 1)
  have hvalue : formulas.evaluate "$²>1" = .error ⟨"$²>1", .unresolvedVariable "²"⟩ :=
    Formula.evaluate_of_parse hparse rfl
  exact ⟨isGuarded_singleton hparse rfl,
    select_cons_of_error (takesPart_of_evaluate (by decide) (by cbv) hvalue)⟩

end Engine

end GuardTree
