import GuardTree.Placeholder.Expansion

/-! # Expansion as a substitution

If every placeholder of a text has a replacement, the expansion is the text with each piece replaced
by itself (`expand_outcome`): the table that is built up on the way only saves lookups. Where a text
can be taken apart between two characters, so can its pieces (`pieces_append`).
-/

namespace GuardTree.Placeholder

set_option autoImplicit false

open Text

/-! ## What is put in -/

/-- What `r` gives for a placeholder, be it for a beginning of its name only. -/
def found? (r : Resolver) (p : Placeholder) : Option String :=
  match (lookUp r p).outcome with
  | .ok found => found
  | .error _ => none

def Piece.substitute (r : Resolver) : Piece → List Char
  | .literal c => [c]
  | .placeholder p => ((found? r p).getD "").toList

def substituted (r : Resolver) (cs : List Char) : List Char :=
  (pieces cs).flatMap (Piece.substitute r)

variable {r : Resolver}

theorem fallBack_outcome (name : String) (ways : List (List Char × List Char)) :
    ∃ found, (fallBack r name ways).outcome = .ok found := by
  induction ways with
  | nil => exact ⟨none, rfl⟩
  | cons way others ih =>
    obtain ⟨known, rest⟩ := way
    rw [fallBack, Traced.bind_ok (a := r (String.ofList known)) rfl]
    cases r (String.ofList known) with
    | some value => exact ⟨_, rfl⟩
    | none => exact ih

/-- Looking a placeholder up does not fail, whether or not anything is found. -/
theorem lookUp_outcome (p : Placeholder) : (lookUp r p).outcome = .ok (found? r p) := by
  have h : ∃ found, (lookUp r p).outcome = .ok found := by
    rw [lookUp, Traced.bind_ok (a := r p.name) rfl]
    cases r p.name with
    | some value => exact ⟨_, rfl⟩
    | none =>
      cases p.braced with
      | true => exact ⟨_, rfl⟩
      | false => exact fallBack_outcome ..
  obtain ⟨found, h⟩ := h
  rw [found?, h]

theorem found?_of_known {p : Placeholder} {v : String} (h : r p.name = some v) :
    found? r p = some v := by
  have hl : (lookUp r p).outcome = .ok (some v) := by
    rw [lookUp, Traced.bind_ok (a := r p.name) rfl, h]
    rfl
  rw [found?, hl]

theorem resolve_outcome {p : Placeholder} {v : String} (h : found? r p = some v) :
    (resolve (some r) p).outcome = .ok v := by
  have hl := lookUp_outcome (r := r) p
  rw [h] at hl
  rw [resolve, Traced.bind_ok hl]
  rfl

def Table.Agrees (r : Resolver) (table : Table) : Prop :=
  ∀ p v, table.lookup p = some v → found? r p = some v

theorem Table.agrees_nil : Table.Agrees r [] := by
  intro p v hp
  cases hp

theorem Table.Agrees.cons {table : Table} {p : Placeholder} {v : String} (h : table.Agrees r)
    (hv : found? r p = some v) : Table.Agrees r ((p, v) :: table) := by
  intro p' v' hp
  rw [List.lookup_cons] at hp
  split at hp
  case h_1 heq =>
    cases hp
    rwa [eq_of_beq heq]
  case h_2 => exact h p' v' hp

theorem resolveAll_outcome {known : Table} {ps : List Placeholder} (hk : known.Agrees r)
    (hps : ∀ p ∈ ps, (found? r p).isSome) :
    ∃ table, (resolveAll (some r) known ps).outcome = .ok table ∧ table.Agrees r ∧
      ∀ p, p ∈ ps ∨ (known.lookup p).isSome → (table.lookup p).isSome := by
  induction ps generalizing known with
  | nil => exact ⟨known, rfl, hk, fun p hp => by simpa using hp⟩
  | cons p ps ih =>
    have hps' : ∀ p ∈ ps, (found? r p).isSome := fun q hq => hps q (List.mem_cons_of_mem _ hq)
    rw [resolveAll]
    split
    case isTrue hp =>
      obtain ⟨table, ho, ht, hmem⟩ := ih hk hps'
      refine ⟨table, ho, ht, fun q hq => hmem q ?_⟩
      obtain hq | hq := hq
      · obtain rfl | hq := List.mem_cons.1 hq
        · exact .inr hp
        · exact .inl hq
      · exact .inr hq
    case isFalse hp =>
      obtain ⟨v, hv⟩ := Option.isSome_iff_exists.1 (hps p List.mem_cons_self)
      obtain ⟨table, ho, ht, hmem⟩ := ih (hk.cons hv) hps'
      rw [Traced.bind_ok (resolve_outcome hv)]
      refine ⟨table, ho, ht, fun q hq => hmem q ?_⟩
      rw [List.lookup_cons]
      obtain hq | hq := hq
      · obtain rfl | hq := List.mem_cons.1 hq
        · exact .inr (by simp)
        · exact .inl hq
      · right
        split
        · rfl
        · exact hq

theorem mem_all_iff {text : String} {p : Placeholder} :
    p ∈ all text ↔ .placeholder p ∈ pieces text.toList := by
  rw [all, List.mem_filterMap]
  constructor
  · rintro ⟨piece, hp, h⟩
    cases piece with
    | literal => cases h
    | placeholder q =>
      cases h
      exact hp
  · intro h
    exact ⟨_, h, rfl⟩

/-- An expansion in which everything is found replaces each piece by itself. -/
theorem expand_outcome {text : String} (h : ∀ p ∈ all text, (found? r p).isSome) :
    (expand (some r) text).outcome = .ok (String.ofList (substituted r text.toList)) := by
  obtain ⟨table, ho, ht, hmem⟩ := resolveAll_outcome Table.agrees_nil h
  rw [expand, Traced.bind_ok ho]
  have hreplace : ∀ piece ∈ pieces text.toList,
      Piece.replace table piece = Piece.substitute r piece := by
    intro piece hp
    cases piece with
    | literal c => rfl
    | placeholder p =>
      obtain ⟨v, hv⟩ := Option.isSome_iff_exists.1 (hmem p (.inl (mem_all_iff.2 hp)))
      rw [Piece.replace, Piece.substitute, hv, ht p v hv]
  rw [List.flatMap_def, List.map_congr_left hreplace, ← List.flatMap_def]
  rfl

/-! ## Taking a text apart -/

theorem pieces_cons {c : Char} (hc : c ≠ '$') (cs : List Char) :
    pieces (c :: cs) = .literal c :: pieces cs := by
  rw [pieces, if_neg hc]

theorem pieces_placeholder {cs rest : List Char} {p : Placeholder} (h : cut? cs = some (p, rest)) :
    pieces ('$' :: cs) = .placeholder p :: pieces rest := by
  rw [pieces, if_pos rfl]
  split
  case h_1 h' =>
    rw [h] at h'
    cases h'
    rfl
  case h_2 h' =>
    rw [h] at h'
    cases h'

theorem pieces_dollar {cs : List Char} (h : cut? cs = none) :
    pieces ('$' :: cs) = .literal '$' :: pieces cs := by
  rw [pieces, if_pos rfl]
  split
  case h_1 h' =>
    rw [h] at h'
    cases h'
  case h_2 => rfl

theorem pieces_append_of_not_mem {cs : List Char} (h : '$' ∉ cs) (ds : List Char) :
    pieces (cs ++ ds) = cs.map .literal ++ pieces ds := by
  induction cs with
  | nil => rfl
  | cons c cs ih =>
    rw [List.mem_cons, not_or] at h
    rw [List.cons_append, pieces_cons (Ne.symm h.1), ih h.2, List.map_cons, List.cons_append]

/-- No placeholder goes on past `d`. -/
def Separates (d : Char) : Prop := isWordChar d = false ∧ d ≠ '\x7b' ∧ d ≠ '\x7d'

instance (d : Char) : Decidable (Separates d) :=
  inferInstanceAs (Decidable (_ ∧ _ ∧ _))

theorem wordOf_append {d : Char} (hd : isWordChar d = false) (cs ds : List Char) :
    wordOf (cs ++ d :: ds) = wordOf cs := by
  induction cs with
  | nil => simp [wordOf, hd]
  | cons c cs ih =>
    unfold wordOf at ih ⊢
    rw [List.cons_append, List.takeWhile_cons, List.takeWhile_cons, ih]

theorem afterWord_append {d : Char} (hd : isWordChar d = false) (cs ds : List Char) :
    afterWord (cs ++ d :: ds) = afterWord cs ++ d :: ds := by
  induction cs with
  | nil => simp [afterWord, hd]
  | cons c cs ih =>
    unfold afterWord at ih ⊢
    rw [List.cons_append, List.dropWhile_cons, List.dropWhile_cons, ih]
    split <;> rfl

theorem cut?_bare {cs : List Char} (hcs : cs.head? ≠ some '{') :
    cut? cs = if (wordOf cs).isEmpty then none
      else some (⟨String.ofList (wordOf cs), false⟩, afterWord cs) := by
  unfold cut?
  split
  · exact absurd rfl hcs
  · rfl

theorem cut?_append {d : Char} (hd : Separates d) (cs ds : List Char) :
    cut? (cs ++ d :: ds) = (cut? cs).map fun (p, rest) => (p, rest ++ d :: ds) := by
  obtain ⟨hw, ho, hc⟩ := hd
  by_cases hcs : cs.head? = some '{'
  · obtain ⟨cs, rfl⟩ := List.head?_eq_some_iff.1 hcs
    rw [List.cons_append]
    unfold cut?
    simp only [wordOf_append hw, afterWord_append hw]
    split
    · rfl
    · match afterWord cs with
      | [] => simp [hc]
      | c :: rest =>
        by_cases hclose : c = '}'
        · rw [hclose]
          rfl
        · simp [hclose]
  · have hcs' : (cs ++ d :: ds).head? ≠ some '{' := by
      cases cs with
      | nil => simpa using ho
      | cons => exact hcs
    rw [cut?_bare hcs, cut?_bare hcs', wordOf_append hw, afterWord_append hw]
    split <;> rfl

theorem pieces_append {d : Char} (hd : Separates d) (cs ds : List Char) :
    pieces (cs ++ d :: ds) = pieces cs ++ pieces (d :: ds) := by
  fun_induction pieces cs with
  | case1 => rfl
  | case2 r p rest hc ih =>
    have hcut : cut? (r ++ d :: ds) = some (p, rest ++ d :: ds) := by rw [cut?_append hd, hc]; rfl
    rw [List.cons_append, pieces_placeholder hcut, ih, List.cons_append]
  | case3 r hc ih =>
    have hcut : cut? (r ++ d :: ds) = none := by rw [cut?_append hd, hc]; rfl
    rw [List.cons_append, pieces_dollar hcut, ih, List.cons_append]
  | case4 c r h ih => rw [List.cons_append, pieces_cons h, ih, List.cons_append]

theorem not_separates_of_mem_wordOf {cs : List Char} {c : Char} (h : c ∈ wordOf cs) :
    ¬ Separates c := by
  rintro ⟨hw, -⟩
  have hc := List.all_eq_true.1 List.all_takeWhile c h
  rw [hw] at hc
  cases hc

/-- The characters of a placeholder after its `$` do not separate. -/
theorem cut?_eq_some {cs rest : List Char} {p : Placeholder} (h : cut? cs = some (p, rest)) :
    ∃ name, cs = name ++ rest ∧ ∀ c ∈ name, ¬ Separates c := by
  unfold cut? at h
  split at h
  case h_1 cs =>
    have happ : wordOf cs ++ afterWord cs = cs := List.takeWhile_append_dropWhile
    split at h
    · cases h
    · split at h
      · rename_i hd
        cases h
        rw [hd] at happ
        refine ⟨'\x7b' :: (wordOf cs ++ ['\x7d']), ?_, ?_⟩
        · rw [List.cons_append, List.append_assoc, List.singleton_append, happ]
        · intro c hc
          rw [List.mem_cons, List.mem_append, List.mem_singleton] at hc
          obtain rfl | hc | rfl := hc
          · decide
          · exact not_separates_of_mem_wordOf hc
          · decide
      · cases h
  case h_2 =>
    have happ : wordOf cs ++ afterWord cs = cs := List.takeWhile_append_dropWhile
    split at h
    · cases h
    · cases h
      exact ⟨wordOf cs, happ.symm, fun c hc => not_separates_of_mem_wordOf hc⟩

end GuardTree.Placeholder
