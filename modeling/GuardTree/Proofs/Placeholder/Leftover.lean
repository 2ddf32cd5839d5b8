import GuardTree.Proofs.Placeholder.Cutting

/-! # What an expansion leaves behind

If no value has a `$`, every `$` of an expanded text has stood in the text as it was and started no
placeholder there (`dollar_suffix_flatMap_iff`). So a placeholder is left behind exactly if such a
`$` comes to start one with what is put in after it (`expand_leaves_placeholder_iff`), and a text
without stray `$` is expanded once and for all.
-/

namespace GuardTree.Placeholder

set_option autoImplicit false

open Text

variable {r : Resolver} {cs : List Char}

/-- A text has a placeholder exactly if one of its `$` starts one. -/
theorem occursIn_iff_takes {text : String} :
    occursIn text = true ↔ ∃ cs p rest, '$' :: cs <:+ text.toList ∧ Takes cs p rest := by
  rw [occursIn_iff]
  constructor
  · rintro ⟨p, hp⟩
    obtain ⟨after, rest, hsuffix, ht⟩ := exists_takes_of_cut (cut_pieces text.toList) hp
    exact ⟨after, p, rest, hsuffix, ht⟩
  · rintro ⟨cs, p, rest, ⟨before, htext⟩, ht⟩
    exact ⟨p, htext ▸ mem_pieces_of_cut? (cut?_of_takes ht) before⟩

/-! ## Where a `$` comes from -/

theorem dollar_suffix_append_iff {w : List Char} (hw : '$' ∉ w) (ds : List Char) :
    '$' :: cs <:+ w ++ ds ↔ '$' :: cs <:+ ds := by
  induction w with
  | nil => rfl
  | cons c w ih =>
    rw [List.mem_cons, not_or] at hw
    rw [List.cons_append, List.suffix_cons_iff, ih hw.2]
    refine or_iff_right fun heq => hw.1 ?_
    exact (List.cons.inj heq).1

theorem dollar_suffix_flatMap_iff {ps : List Piece}
    (hps : ∀ p, .placeholder p ∈ ps → '$' ∉ (Piece.placeholder p).substitute r) :
    '$' :: cs <:+ ps.flatMap (Piece.substitute r) ↔
      ∃ after, .literal '$' :: after <:+ ps ∧ cs = after.flatMap (Piece.substitute r) := by
  induction ps with
  | nil => simp
  | cons piece ps ih =>
    specialize ih fun p hp => hps p (List.mem_cons_of_mem _ hp)
    rw [List.flatMap_cons]
    simp only [@List.suffix_cons_iff _ _ _ ps, or_and_right, exists_or]
    cases piece with
    | placeholder p =>
      rw [dollar_suffix_append_iff (hps p List.mem_cons_self), ih]
      simp
    | literal c =>
      rw [Piece.substitute, List.singleton_append, List.suffix_cons_iff, ih]
      simp

/-! ## What is left -/

/-- **A placeholder is left behind exactly if a stray `$` comes to start one.** When no value has a
`$` and an expansion succeeds, its result has a placeholder exactly if some `$` that started none in
the text does start one together with what is put in after it. If every `$` of the text starts a
placeholder none is left; and a result without placeholders stays as it is when it is expanded
again, with or without a resolver, and no name is looked up. -/
theorem expand_leaves_placeholder_iff (hr : DollarFree r) {text result : String}
    (h : (expand (some r) text).outcome = .ok result) :
    (occursIn result = true ↔ ∃ after p rest,
      .literal '$' :: after <:+ pieces text.toList ∧
        Takes (after.flatMap (Piece.substitute r)) p rest) ∧
    (Tidy text → occursIn result = false) ∧
    (occursIn result = false → ∀ r' : Option Resolver,
      (expand r' result).outcome = .ok result ∧ (expand r' result).asked = []) := by
  refine ⟨?_, fun ht => not_occursIn_of_expand hr ht h, fun hnone r' => ?_⟩
  · obtain ⟨-, rfl⟩ := expand_ok_iff.1 h
    simp only [occursIn_iff_takes, String.toList_ofList, substituted,
      dollar_suffix_flatMap_iff fun _ => not_mem_substitute hr]
    constructor
    · rintro ⟨cs, p, rest, ⟨after, hafter, rfl⟩, ht⟩
      exact ⟨after, p, rest, hafter, ht⟩
    · rintro ⟨after, p, rest, hafter, ht⟩
      exact ⟨_, p, rest, ⟨after, hafter, rfl⟩, ht⟩
  · rw [expand_of_not_occursIn hnone]
    exact ⟨rfl, rfl⟩

theorem dollarFree_one {name value : String} (h : '$' ∉ value.toList) :
    DollarFree fun other => if other = name then some value else none := by
  intro other v hv
  obtain ⟨-, heq⟩ := Option.ite_none_right_eq_some.1 hv
  cases heq
  exact h

/-- A stray `$` before a brace makes a placeholder of the value between the braces. -/
theorem expand_leaves_placeholder_iff_nested :
    let r : Resolver := fun name => if name = "A" then some "b" else none
    (DollarFree r ∧ (expand (some r) "$\x7b$A\x7d-$A_x").outcome = .ok "$\x7bb\x7d-b_x") ∧
      occursIn "$\x7bb\x7d-b_x" = true := by
  intro r
  have hr : DollarFree r := dollarFree_one (by decide)
  have h : (expand (some r) "$\x7b$A\x7d-$A_x").outcome = .ok "$\x7bb\x7d-b_x" := by cbv
  have hstray : .literal '$' :: (pieces "\x7b$A\x7d-$A_x".toList) <:+
      pieces "$\x7b$A\x7d-$A_x".toList := ⟨[], by cbv⟩
  have ht : Takes ((pieces "\x7b$A\x7d-$A_x".toList).flatMap (Piece.substitute r)) ⟨"b", true⟩
      "-b_x".toList := takes_of_cut? (by cbv)
  exact ⟨⟨hr, h⟩, (expand_leaves_placeholder_iff hr h).1.2 ⟨_, _, _, hstray, ht⟩⟩

/-- The `$` before a placeholder starts one with the value that is put in. -/
theorem expand_joins_stray_dollar :
    let r : Resolver := fun name => if name = "A" then some "b" else none
    DollarFree r ∧ (expand (some r) "True or $$A").outcome = .ok "True or $b" ∧
      occursIn "True or $b" = true ∧
      (expand none "True or $b").outcome = .error (.expansion ⟨"b", false⟩ .noResolver) :=
  ⟨dollarFree_one (by decide), by cbv, by cbv, by cbv⟩

end GuardTree.Placeholder
