import GuardTree.Proofs.Placeholder.Occurrence

/-! # The one way to cut a text

`Takes` says which placeholder a `$` starts, and `Cut` what it is to cut a text from the left. Every
text is cut in one way only, and that is how `pieces` cuts it (`cut_iff`).
-/

namespace GuardTree.Placeholder

set_option autoImplicit false

open Text

variable {cs w rest : List Char} {p : Placeholder}

/-! ## Runs of word characters -/

/-- The text `cs` is `w`, word characters as far as they go, followed by `rest`. -/
structure Run (cs w rest : List Char) : Prop where
  append : w ++ rest = cs
  ne_nil : w ≠ []
  words : ∀ c ∈ w, isWordChar c = true
  stops : ∀ c ∈ rest.head?, isWordChar c = false

theorem wordOf_eq_nil (h : ∀ c ∈ cs.head?, isWordChar c = false) : wordOf cs = [] := by
  cases cs with
  | nil => rfl
  | cons c cs => simp [wordOf, h c rfl]

theorem Run.wordOf_eq (h : Run cs w rest) : wordOf cs = w := by
  rw [← h.append, wordOf, List.takeWhile_append_of_pos h.words]
  exact (congrArg (w ++ ·) (wordOf_eq_nil h.stops)).trans (List.append_nil w)

theorem Run.afterWord_eq (h : Run cs w rest) : afterWord cs = rest := by
  have hcs : wordOf cs ++ afterWord cs = w ++ rest :=
    List.takeWhile_append_dropWhile.trans h.append.symm
  rw [h.wordOf_eq] at hcs
  exact List.append_cancel_left hcs

theorem run_wordOf (h : wordOf cs ≠ []) : Run cs (wordOf cs) (afterWord cs) where
  append := List.takeWhile_append_dropWhile
  ne_nil := h
  words := fun _ => isWordChar_of_mem_wordOf
  stops := fun c hc => by
    have hhead : (cs.dropWhile isWordChar).head? = some c := hc
    have hnot := List.head?_dropWhile_not isWordChar cs
    rwa [hhead] at hnot

theorem Run.head?_ne (h : Run cs w rest) : cs.head? ≠ some '\x7b' := by
  rw [← h.append, List.head?_append_of_ne_nil w h.ne_nil]
  exact head?_ne_brace h.words

/-! ## What a `$` starts -/

/-- After a `$`, `cs` begins with the rest of the placeholder `p`, and goes on with `rest`. -/
inductive Takes : List Char → Placeholder → List Char → Prop
  | braced {cs w rest : List Char} (h : Run cs w ('\x7d' :: rest)) :
    Takes ('\x7b' :: cs) ⟨.ofList w, true⟩ rest
  | bare {cs w rest : List Char} (h : Run cs w rest) : Takes cs ⟨.ofList w, false⟩ rest

theorem cut?_of_takes (h : Takes cs p rest) : cut? cs = some (p, rest) := by
  cases h with
  | @braced cs w rest h =>
    simp [cut?, h.wordOf_eq, h.afterWord_eq, h.ne_nil]
  | bare h =>
    rw [cut?_bare h.head?_ne, h.wordOf_eq, h.afterWord_eq, if_neg]
    simpa using h.ne_nil

theorem takes_of_cut? (h : cut? cs = some (p, rest)) : Takes cs p rest := by
  unfold cut? at h
  split at h
  case h_1 cs =>
    split at h
    case isTrue => cases h
    case isFalse hw =>
      split at h
      case h_1 hrest =>
        cases h
        exact .braced (hrest ▸ run_wordOf (by simpa using hw))
      case h_2 => cases h
  case h_2 =>
    split at h
    case isTrue => cases h
    case isFalse hw =>
      cases h
      exact .bare (run_wordOf (by simpa using hw))

/-! ## Cutting from the left -/

/-- `Cut cs ps`: cutting the text `cs` from the left gives the pieces `ps`. -/
inductive Cut : List Char → List Piece → Prop
  | nil : Cut [] []
  | other {c : Char} {cs : List Char} {ps : List Piece} (hc : c ≠ '$') (h : Cut cs ps) :
    Cut (c :: cs) (.literal c :: ps)
  | placeholder {cs rest : List Char} {p : Placeholder} {ps : List Piece} (hp : Takes cs p rest)
    (h : Cut rest ps) : Cut ('$' :: cs) (.placeholder p :: ps)
  | dollar {cs : List Char} {ps : List Piece} (hp : ∀ p rest, ¬ Takes cs p rest) (h : Cut cs ps) :
    Cut ('$' :: cs) (.literal '$' :: ps)

theorem cut_pieces (cs : List Char) : Cut cs (pieces cs) := by
  fun_induction pieces cs with
  | case1 => exact .nil
  | case2 r p rest hc ih => exact .placeholder (takes_of_cut? hc) ih
  | case3 r hc ih =>
    refine .dollar (fun p rest hp => ?_) ih
    rw [cut?_of_takes hp] at hc
    cases hc
  | case4 c r hc ih => exact .other hc ih

theorem pieces_of_cut {ps : List Piece} (h : Cut cs ps) : pieces cs = ps := by
  induction h with
  | nil => rw [pieces]
  | other hc _ ih => rw [pieces_cons hc, ih]
  | placeholder hp _ ih => rw [pieces_placeholder (cut?_of_takes hp), ih]
  | @dollar cs _ hp _ ih =>
    have hnone : cut? cs = none := by
      rw [Option.eq_none_iff_forall_ne_some]
      rintro ⟨p, rest⟩ hcut
      exact hp p rest (takes_of_cut? hcut)
    rw [pieces_dollar hnone, ih]

theorem cut_iff {ps : List Piece} : Cut cs ps ↔ ps = pieces cs := by
  constructor
  · intro h
    exact (pieces_of_cut h).symm
  · rintro rfl
    exact cut_pieces cs

theorem Takes.suffix (h : Takes cs p rest) : rest <:+ '$' :: cs :=
  ⟨_, spell_cut? (cut?_of_takes h)⟩

/-- Every placeholder that is cut off starts with a `$` of the text. -/
theorem exists_takes_of_cut {ps : List Piece} (h : Cut cs ps) (hp : .placeholder p ∈ ps) :
    ∃ after rest, '$' :: after <:+ cs ∧ Takes after p rest := by
  have hcons : ∀ {c : Char} {cs : List Char},
      (∃ after rest, '$' :: after <:+ cs ∧ Takes after p rest) →
      ∃ after rest, '$' :: after <:+ c :: cs ∧ Takes after p rest := by
    rintro c cs ⟨after, rest, hsuffix, ht⟩
    exact ⟨after, rest, hsuffix.trans (List.suffix_cons c cs), ht⟩
  induction h with
  | nil => cases hp
  | other _ _ ih => exact hcons (ih (List.mem_of_ne_of_mem Piece.noConfusion hp))
  | dollar _ _ ih => exact hcons (ih (List.mem_of_ne_of_mem Piece.noConfusion hp))
  | @placeholder cs rest q ps ht _ ih =>
    obtain heq | hp := List.mem_cons.1 hp
    · cases heq
      exact ⟨cs, rest, List.suffix_rfl, ht⟩
    · obtain ⟨after, rest', hsuffix, ht'⟩ := ih hp
      exact ⟨after, rest', hsuffix.trans ht.suffix, ht'⟩

end GuardTree.Placeholder
