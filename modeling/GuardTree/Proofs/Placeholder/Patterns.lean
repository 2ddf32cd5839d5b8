import GuardTree.Proofs.Placeholder.Cutting
import GuardTree.Proofs.Placeholder.Lookups

/-! # The patterns for placeholders

Placeholders are found by patterns, which take the first of the ways in which they match. There are
two patterns, `${NAME}` before `$NAME` to expand a text and the other way around to see whether there
is anything to expand. No text matches both alternatives, so that the two cut a text alike, into its
`pieces` (`scans_pieces`), and expanding a text is one substitution: `expand_substitutes`.
-/

namespace GuardTree.Placeholder

set_option autoImplicit false

open Text

/-! ## Patterns -/

inductive Pattern
  | one (c : Char)
  /-- As many characters of a class as possible, at least one. -/
  | many (inClass : Char → Bool)
  | seq (first second : Pattern)
  /-- The second pattern is tried if there is no way with the first one. -/
  | alt (first second : Pattern)

namespace Pattern

/-- The ways in which characters of a class can be taken from the front, the longest first. -/
def runs (inClass : Char → Bool) : List Char → List (List Char × List Char)
  | [] => []
  | c :: cs =>
    if inClass c then (runs inClass cs).map (fun way => (c :: way.1, way.2)) ++ [([c], cs)] else []

/-- The ways in which a pattern matches the front of a text, each with what follows, in the order in
which they are tried. -/
def ways : Pattern → List Char → List (List Char × List Char)
  | one _, [] => []
  | one c, d :: cs => if d = c then [([d], cs)] else []
  | many inClass, cs => runs inClass cs
  | seq a b, cs => (a.ways cs).flatMap fun way => (b.ways way.2).map fun next =>
      (way.1 ++ next.1, next.2)
  | alt a b, cs => a.ways cs ++ b.ways cs

/-- The match of a pattern at the front of a text, and what follows. -/
def match? (a : Pattern) (cs : List Char) : Option (List Char × List Char) := (a.ways cs).head?

/-- `a.Scans cs ps`: looking for matches of `a` from the left, each where the one before ended, finds
the placeholders among the pieces `ps`. -/
inductive Scans (a : Pattern) : List Char → List Piece → Prop
  | nil : Scans a [] []
  | hit {cs rest : List Char} {p : Placeholder} {ps : List Piece}
    (hp : a.match? cs = some (p.spelling.toList, rest)) (h : Scans a rest ps) :
    Scans a cs (.placeholder p :: ps)
  | skip {c : Char} {cs : List Char} {ps : List Piece} (hc : a.match? (c :: cs) = none)
    (h : Scans a cs ps) : Scans a (c :: cs) (.literal c :: ps)

/-- `${NAME}` -/
def braced : Pattern := seq (one '$') (seq (one '\x7b') (seq (many isWordChar) (one '\x7d')))

/-- `$NAME` -/
def bare : Pattern := seq (one '$') (many isWordChar)

/-- The pattern with which a text is expanded. -/
def bracedFirst : Pattern := alt braced bare

/-- The pattern that tells whether a text has something to expand. -/
def bareFirst : Pattern := alt bare braced

/-! ## What the patterns match -/

variable {a b : Pattern} {c : Char} {cs : List Char} {way : List Char × List Char}

theorem ways_seq_one_cons : (seq (one c) a).ways (c :: cs) =
    (a.ways cs).map fun way => (c :: way.1, way.2) := by
  simp [ways]

theorem ways_seq_one_of_head?_ne (h : cs.head? ≠ some c) : (seq (one c) a).ways cs = [] := by
  cases cs with
  | nil => rfl
  | cons d cs =>
    have hd : d ≠ c := by simpa using h
    simp [ways, hd]

theorem of_mem_runs {inClass : Char → Bool} {w rest : List Char}
    (h : (w, rest) ∈ runs inClass cs) : w ++ rest = cs ∧ w ≠ [] ∧ ∀ c ∈ w, inClass c = true := by
  induction cs generalizing w with
  | nil => cases h
  | cons c cs ih =>
    rw [runs] at h
    split at h
    case isTrue hc =>
      obtain h | h := List.mem_append.1 h
      · obtain ⟨⟨w', rest'⟩, hw', heq⟩ := List.mem_map.1 h
        cases heq
        obtain ⟨rfl, -, hw⟩ := ih hw'
        exact ⟨rfl, List.cons_ne_nil _ _, List.forall_mem_cons.2 ⟨hc, hw⟩⟩
      · cases List.mem_singleton.1 h
        exact ⟨rfl, List.cons_ne_nil _ _, by simpa using hc⟩
    case isFalse => cases h

theorem mem_runs {inClass : Char → Bool} {w : List Char} (hne : w ≠ [])
    (hw : ∀ c ∈ w, inClass c = true) (rest : List Char) :
    (w, rest) ∈ runs inClass (w ++ rest) := by
  induction w with
  | nil => exact absurd rfl hne
  | cons c w ih =>
    obtain ⟨hc, hw⟩ := List.forall_mem_cons.1 hw
    rw [List.cons_append, runs, if_pos hc, List.mem_append]
    obtain rfl | hne := eq_or_ne w []
    · exact .inr List.mem_cons_self
    · exact .inl (List.mem_map.2 ⟨_, ih hne hw, rfl⟩)

theorem head?_runs (cs : List Char) : (runs isWordChar cs).head? =
    if wordOf cs = [] then none else some (wordOf cs, afterWord cs) := by
  induction cs with
  | nil => rfl
  | cons c cs ih =>
    by_cases hc : isWordChar c = true
    · have hword : wordOf (c :: cs) = c :: wordOf cs := List.takeWhile_cons_of_pos hc
      have hafter : afterWord (c :: cs) = afterWord cs := List.dropWhile_cons_of_pos hc
      rw [runs, if_pos hc, List.head?_append, List.head?_map, ih, hword, hafter,
        if_neg (List.cons_ne_nil _ _)]
      split
      case isTrue hnil =>
        have hcs : wordOf cs ++ afterWord cs = cs := List.takeWhile_append_dropWhile
        rw [hnil, List.nil_append] at hcs
        rw [hnil, hcs]
        rfl
      case isFalse => rfl
    · simp [runs, wordOf, hc]

theorem match?_many_iff {w rest : List Char} :
    (many isWordChar).match? cs = some (w, rest) ↔ Run cs w rest := by
  rw [match?, ways, head?_runs]
  constructor
  · intro h
    split at h
    case isTrue => cases h
    case isFalse hne =>
      cases h
      exact run_wordOf hne
  · intro h
    rw [h.wordOf_eq, h.afterWord_eq, if_neg h.ne_nil]

theorem match?_seq_one_iff {m rest : List Char} : (seq (one c) a).match? cs = some (m, rest) ↔
    ∃ cs' m', cs = c :: cs' ∧ a.match? cs' = some (m', rest) ∧ m = c :: m' := by
  by_cases h : cs.head? = some c
  · obtain ⟨cs, rfl⟩ := List.head?_eq_some_iff.1 h
    rw [match?, ways_seq_one_cons, List.head?_map, Option.map_eq_some_iff]
    constructor
    · rintro ⟨way, hway, heq⟩
      cases heq
      exact ⟨cs, way.1, rfl, hway, rfl⟩
    · rintro ⟨cs', m', heq, hm, rfl⟩
      cases heq
      exact ⟨_, hm, rfl⟩
  · rw [match?, ways_seq_one_of_head?_ne h]
    constructor
    · intro h
      cases h
    · rintro ⟨cs', m', rfl, -⟩
      exact absurd rfl h

theorem mem_ways_closed {m rest : List Char} :
    (m, rest) ∈ (seq (many isWordChar) (one '\x7d')).ways cs ↔
      ∃ w, Run cs w ('\x7d' :: rest) ∧ m = w ++ ['\x7d'] := by
  rw [ways, List.mem_flatMap]
  constructor
  · rintro ⟨⟨w, after⟩, hw, hmem⟩
    obtain ⟨hcs, hne, hwords⟩ := of_mem_runs hw
    obtain ⟨next, hnext, heq⟩ := List.mem_map.1 hmem
    cases heq
    cases after with
    | nil => cases hnext
    | cons d after =>
      rw [ways] at hnext
      split at hnext
      case isTrue hd =>
        obtain rfl := List.mem_singleton.1 hnext
        subst hd
        refine ⟨w, ⟨hcs, hne, hwords, ?_⟩, rfl⟩
        intro c hc
        obtain rfl := Option.mem_some.1 hc
        decide
      case isFalse => cases hnext
  · rintro ⟨w, h, rfl⟩
    refine ⟨_, h.append ▸ mem_runs h.ne_nil h.words _, ?_⟩
    simp [ways]

/-- Only one of the ways to take word characters is followed by a closing brace. -/
theorem match?_closed_iff {m rest : List Char} :
    (seq (many isWordChar) (one '\x7d')).match? cs = some (m, rest) ↔
      ∃ w, Run cs w ('\x7d' :: rest) ∧ m = w ++ ['\x7d'] := by
  rw [← mem_ways_closed, match?]
  refine ⟨List.mem_of_head?, fun h => ?_⟩
  cases hways : (seq (many isWordChar) (one '\x7d')).ways cs with
  | nil =>
    rw [hways] at h
    cases h
  | cons way others =>
    obtain ⟨w, hw, hm⟩ := mem_ways_closed.1 h
    obtain ⟨w', hw', hm'⟩ := mem_ways_closed.1 (hways ▸ List.mem_cons_self : way ∈ _)
    have hrest := hw.afterWord_eq.symm.trans hw'.afterWord_eq
    rw [List.head?_cons, Option.some_inj, Prod.ext_iff]
    rw [hm, hm', ← hw.wordOf_eq, ← hw'.wordOf_eq]
    exact ⟨rfl, (List.cons.inj hrest).2.symm⟩

theorem match?_braced_iff {m rest : List Char} : braced.match? cs = some (m, rest) ↔
    ∃ inner w, cs = '$' :: '\x7b' :: inner ∧ Run inner w ('\x7d' :: rest) ∧
      m = (spelling ⟨.ofList w, true⟩).toList := by
  simp only [braced, match?_seq_one_iff, match?_closed_iff]
  constructor
  · rintro ⟨_, _, rfl, ⟨inner, _, rfl, ⟨w, hw, rfl⟩, rfl⟩, rfl⟩
    exact ⟨inner, w, rfl, hw, by simp [spelling]⟩
  · rintro ⟨inner, w, rfl, hw, rfl⟩
    exact ⟨_, _, rfl, ⟨inner, _, rfl, ⟨w, hw, rfl⟩, rfl⟩, by simp [spelling]⟩

theorem match?_bare_iff {m rest : List Char} : bare.match? cs = some (m, rest) ↔
    ∃ after w, cs = '$' :: after ∧ Run after w rest ∧
      m = (spelling ⟨.ofList w, false⟩).toList := by
  simp only [bare, match?_seq_one_iff, match?_many_iff]
  constructor
  · rintro ⟨after, w, rfl, hw, rfl⟩
    exact ⟨after, w, rfl, hw, by simp [spelling]⟩
  · rintro ⟨after, w, rfl, hw, rfl⟩
    exact ⟨after, w, rfl, hw, by simp [spelling]⟩

/-- No text matches both with and without braces. -/
theorem match?_braced_or_bare (cs : List Char) :
    braced.match? cs = none ∨ bare.match? cs = none := by
  cases hbraced : braced.match? cs with
  | none => exact .inl rfl
  | some way =>
    obtain ⟨inner, w, rfl, -⟩ := match?_braced_iff.1 hbraced
    right
    rw [Option.eq_none_iff_forall_ne_some]
    rintro ⟨m, rest⟩ hbare
    obtain ⟨after, w', hcs, hw, -⟩ := match?_bare_iff.1 hbare
    cases hcs
    exact hw.head?_ne rfl

theorem match?_alt_iff (h : a.match? cs = none ∨ b.match? cs = none) :
    (alt a b).match? cs = some way ↔ a.match? cs = some way ∨ b.match? cs = some way := by
  have halt : (alt a b).match? cs = (a.match? cs).or (b.match? cs) := List.head?_append
  rw [halt]
  obtain h | h := h
  · simp [h]
  · simp [h]

/-- Matches are placeholders, and every placeholder is matched. -/
def Finds (a : Pattern) : Prop :=
  ∀ cs m rest, a.match? cs = some (m, rest) ↔
    ∃ after p, cs = '$' :: after ∧ Takes after p rest ∧ m = p.spelling.toList

theorem match?_or_iff {m rest : List Char} :
    braced.match? cs = some (m, rest) ∨ bare.match? cs = some (m, rest) ↔
      ∃ after p, cs = '$' :: after ∧ Takes after p rest ∧ m = p.spelling.toList := by
  rw [match?_braced_iff, match?_bare_iff]
  constructor
  · rintro (⟨inner, w, hcs, hw, hm⟩ | ⟨after, w, hcs, hw, hm⟩)
    · exact ⟨_, _, hcs, .braced hw, hm⟩
    · exact ⟨_, _, hcs, .bare hw, hm⟩
  · rintro ⟨after, p, hcs, hp, hm⟩
    cases hp with
    | braced hw => exact .inl ⟨_, _, hcs, hw, hm⟩
    | bare hw => exact .inr ⟨_, _, hcs, hw, hm⟩

theorem finds_bracedFirst : bracedFirst.Finds := fun cs _ _ =>
  (match?_alt_iff (match?_braced_or_bare cs)).trans match?_or_iff

theorem finds_bareFirst : bareFirst.Finds := fun cs _ _ =>
  (match?_alt_iff (match?_braced_or_bare cs).symm).trans (or_comm.trans match?_or_iff)

theorem Finds.match?_eq_none (ha : a.Finds)
    (h : ∀ after p rest, cs = '$' :: after → ¬ Takes after p rest) : a.match? cs = none := by
  rw [Option.eq_none_iff_forall_ne_some]
  rintro ⟨m, rest⟩ hm
  obtain ⟨after, p, hcs, hp, -⟩ := (ha cs m rest).1 hm
  exact h after p rest hcs hp

theorem Finds.scans_of_cut (ha : a.Finds) {ps : List Piece} (h : Cut cs ps) : a.Scans cs ps := by
  induction h with
  | nil => exact .nil
  | other hc _ ih =>
    refine .skip (ha.match?_eq_none fun after p rest hcs => ?_) ih
    exact absurd (List.cons.inj hcs).1 hc
  | placeholder hp _ ih => exact .hit ((ha _ _ _).2 ⟨_, _, rfl, hp, rfl⟩) ih
  | dollar hp _ ih =>
    refine .skip (ha.match?_eq_none fun after p rest hcs => ?_) ih
    cases hcs
    exact hp p rest

/-- There is something to expand exactly if the pattern matches somewhere. -/
theorem Finds.occursIn_iff (ha : a.Finds) {text : String} :
    occursIn text = true ↔ ∃ cs, cs <:+ text.toList ∧ (a.match? cs).isSome := by
  constructor
  · intro h
    obtain ⟨p, hp⟩ := Placeholder.occursIn_iff.1 h
    obtain ⟨after, rest, hsuffix, ht⟩ := exists_takes_of_cut (cut_pieces text.toList) hp
    exact ⟨_, hsuffix, Option.isSome_of_eq_some ((ha _ _ rest).2 ⟨after, p, rfl, ht, rfl⟩)⟩
  · rintro ⟨cs, ⟨before, htext⟩, hmatch⟩
    obtain ⟨⟨m, rest⟩, hm⟩ := Option.isSome_iff_exists.1 hmatch
    obtain ⟨after, p, rfl, ht, -⟩ := (ha cs m rest).1 hm
    exact occursIn_of_cut? htext.symm (cut?_of_takes ht)

end Pattern

/-! ## One substitution -/

variable {r : Resolver}

theorem found?_isNone_iff {p : Placeholder} : (found? r p).isNone ↔ ∀ v, ¬ Replaces r p v := by
  simp only [Option.isNone_iff_eq_none, Option.eq_none_iff_forall_ne_some, Ne, found?_eq_some_iff]

theorem exists_expand_ok_iff {text : String} :
    (∃ result, (expand (some r) text).outcome = .ok result) ↔
      ∀ p ∈ all text, ∃ v, Replaces r p v := by
  simp only [expand_ok_iff, exists_and_left, exists_eq, and_true, Option.isSome_iff_exists,
    found?_eq_some_iff]

/-- An expansion fails at the first placeholder that is replaced by nothing. -/
theorem expand_error_iff_first {text : String} {f : Failure} :
    (expand (some r) text).outcome = .error f ↔
      ∃ before p after, all text = before ++ p :: after ∧ (∀ q ∈ before, ∃ v, Replaces r q v) ∧
        (∀ v, ¬ Replaces r p v) ∧ f = .expansion p .unknown := by
  have hknown : ∀ q, (!(found? r q).isNone) = true ↔ ∃ v, Replaces r q v := by
    intro q
    rw [Bool.not_eq_true', ← Bool.not_eq_true, found?_isNone_iff, not_forall_not]
  simp only [expand_error_iff, List.find?_eq_some_iff_append, hknown, found?_isNone_iff]
  constructor
  · rintro ⟨p, ⟨hp, before, after, hall, hbefore⟩, hf⟩
    exact ⟨before, p, after, hall, hbefore, hp, hf⟩
  · rintro ⟨before, p, after, hall, hbefore, hp, hf⟩
    exact ⟨p, ⟨hp, before, after, hall, hbefore⟩, hf⟩

theorem expand_none_outcome (text : String) :
    (expand none text).outcome = match (all text).head? with
      | none => .ok text
      | some p => .error (.expansion p .noResolver) := by
  cases hall : all text with
  | nil =>
    have hoccurs : occursIn text = false := by rw [occursIn, hall]; rfl
    rw [expand_of_not_occursIn hoccurs]
    rfl
  | cons p ps =>
    rw [expand, hall, resolveAll, List.lookup_nil, if_neg (by simp)]
    rfl

theorem expand_none_ok_iff {text result : String} :
    (expand none text).outcome = .ok result ↔ occursIn text = false ∧ result = text := by
  rw [expand_none_outcome, occursIn]
  cases all text with
  | nil => simp [eq_comm]
  | cons p ps => simp

theorem expand_none_error_iff {text : String} {f : Failure} :
    (expand none text).outcome = .error f ↔
      ∃ p after, all text = p :: after ∧ f = .expansion p .noResolver := by
  rw [expand_none_outcome]
  cases all text with
  | nil => simp
  | cons p ps => simp [eq_comm]

/-- **An expansion is one substitution from left to right.** A text is cut in one way, and both
patterns cut it so. If every placeholder has a replacement, the pieces are written in order, a literal
as it stands and a placeholder as its replacement, which is not looked at again; otherwise the first
placeholder without one is what the expansion fails for. Without a resolver a text is expanded exactly
if the second pattern is nowhere found in it, and stays as it is. -/
theorem expand_substitutes (r : Resolver) (text : String) :
    (∀ ps, Cut text.toList ps ↔ ps = pieces text.toList) ∧
      Pattern.bracedFirst.Scans text.toList (pieces text.toList) ∧
      Pattern.bareFirst.Scans text.toList (pieces text.toList) ∧
      ((∃ result, (expand (some r) text).outcome = .ok result) ↔
        ∀ p ∈ all text, ∃ v, Replaces r p v) ∧
      (∀ result, (expand (some r) text).outcome = .ok result ↔
        ∃ parts, List.Forall₂ (Piece.Becomes r) (pieces text.toList) parts ∧
          result = .ofList parts.flatten) ∧
      (∀ f, (expand (some r) text).outcome = .error f ↔
        ∃ before p after, all text = before ++ p :: after ∧ (∀ q ∈ before, ∃ v, Replaces r q v) ∧
          (∀ v, ¬ Replaces r p v) ∧ f = .expansion p .unknown) ∧
      (∀ result, (expand none text).outcome = .ok result ↔ occursIn text = false ∧ result = text) ∧
      (∀ f, (expand none text).outcome = .error f ↔
        ∃ p after, all text = p :: after ∧ f = .expansion p .noResolver) ∧
      (occursIn text = true ↔
        ∃ cs, cs <:+ text.toList ∧ (Pattern.bareFirst.match? cs).isSome) :=
  ⟨fun _ => cut_iff, Pattern.finds_bracedFirst.scans_of_cut (cut_pieces _),
    Pattern.finds_bareFirst.scans_of_cut (cut_pieces _), exists_expand_ok_iff,
    fun _ => expand_ok_iff_becomes, fun _ => expand_error_iff_first, fun _ => expand_none_ok_iff,
    fun _ => expand_none_error_iff, Pattern.finds_bareFirst.occursIn_iff⟩

end GuardTree.Placeholder
