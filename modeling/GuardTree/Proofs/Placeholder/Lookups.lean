import GuardTree.Proofs.Placeholder.Occurrence

/-! # Which names are looked up

A placeholder without braces makes do with the longest known beginning of its name before a `_`.
`Replaces` says what is put in for a placeholder, and `namesFor` which names are tried, in order.
Each spelling in a text is looked up once, where it first occurs, and the first one that is not found
ends the expansion: `expand_asks`.
-/

namespace GuardTree.Placeholder

set_option autoImplicit false

open Text

variable {r : Resolver} {p : Placeholder}

/-! ## Beginnings of a name -/

/-- The ways to cut a name before a `_`, something being left on both sides: the longest beginning
first. -/
def beginnings (cs : List Char) : List (List Char × List Char) :=
  ((List.range cs.length).reverse.filter fun n => 0 < n ∧ cs[n]? = some '_').map fun n =>
    (cs.take n, cs.drop n)

theorem cuts_eq (before cs : List Char) :
    cuts before cs =
      ((List.range cs.length).reverse.filter fun n =>
        0 < before.length + n ∧ cs[n]? = some '_').map fun n => (before ++ cs.take n, cs.drop n) := by
  induction cs generalizing before with
  | nil => rfl
  | cons c cs ih =>
    rw [cuts, ih, List.length_cons, List.range_succ_eq_map, List.reverse_cons, List.filter_append,
      List.map_append, ← List.map_reverse, List.filter_map, List.map_map]
    congr 1
    · simp [Function.comp_def, Nat.add_assoc, Nat.add_comm 1]
    · have hzero : 0 < before.length + 0 ∧ (c :: cs)[0]? = some '_' ↔ c = '_' ∧ before ≠ [] := by
        simp [List.length_pos_iff, and_comm]
      simp only [List.filter_singleton, hzero]
      by_cases h : c = '_' ∧ before ≠ [] <;> simp [h]

theorem cuts_nil_eq_beginnings (cs : List Char) : cuts [] cs = beginnings cs := by
  simp [cuts_eq, beginnings]

/-- A beginning of a name, the rest of which starts with a `_`. -/
structure Splits (name : String) (known rest : List Char) : Prop where
  append : known ++ rest = name.toList
  ne_nil : known ≠ []
  head : rest.head? = some '_'

theorem mem_beginnings_iff {name : String} {known rest : List Char} :
    (known, rest) ∈ beginnings name.toList ↔ Splits name known rest := by
  simp only [beginnings, List.mem_map, List.mem_filter, List.mem_reverse, List.mem_range,
    decide_eq_true_eq, Prod.mk.injEq]
  constructor
  · rintro ⟨n, ⟨hn, hpos, hhead⟩, rfl, rfl⟩
    refine ⟨List.take_append_drop _ _, ?_, ?_⟩
    · rw [← List.length_pos_iff, List.length_take]
      omega
    · rw [List.head?_drop, hhead]
  · rintro ⟨happ, hne, hhead⟩
    have hpos : 0 < rest.length := by
      cases rest with
      | nil => cases hhead
      | cons => exact Nat.succ_pos _
    refine ⟨known.length, ⟨?_, List.length_pos_iff.2 hne, ?_⟩, ?_, ?_⟩
    · rw [← happ, List.length_append]
      omega
    · rw [← happ, List.getElem?_append_right (Nat.le_refl _), Nat.sub_self, ← List.head?_eq_getElem?,
        hhead]
    · rw [← happ, List.take_left]
    · rw [← happ, List.drop_left]

theorem beginnings_pairwise (cs : List Char) :
    (beginnings cs).Pairwise fun x y => y.1.length < x.1.length := by
  rw [beginnings, List.pairwise_map]
  refine List.Pairwise.imp_of_mem ?_ ((List.pairwise_lt_range.reverse).filter _)
  intro n m hn hm hlt
  have := List.mem_range.1 (List.mem_reverse.1 (List.mem_of_mem_filter hn))
  simp only [List.length_take]
  omega

/-! ## What a placeholder is replaced by -/

/-- `Replaces r p v`: the placeholder `p` is replaced by `v`. -/
inductive Replaces (r : Resolver) : Placeholder → String → Prop
  | known {p : Placeholder} {v : String} (h : r p.name = some v) : Replaces r p v
  /-- The longest beginning of the name that is known has the value `v`. -/
  | beginning {name v : String} {known rest : List Char} (hn : r name = none)
      (hs : Splits name known rest) (hv : r (.ofList known) = some v)
      (hlongest : ∀ known' rest', Splits name known' rest' → known.length < known'.length →
        r (.ofList known') = none) : Replaces r ⟨name, false⟩ (v ++ .ofList rest)

theorem fallBack_outcome_eq (name : String) (ways : List (List Char × List Char)) :
    (fallBack r name ways).outcome = .ok (ways.findSome? fun way =>
      (r (.ofList way.1)).map fun v => v ++ .ofList way.2) := by
  induction ways with
  | nil => rfl
  | cons way ways ih =>
    obtain ⟨known, rest⟩ := way
    rw [fallBack, Traced.bind_ok (a := r (String.ofList known)) rfl, List.findSome?_cons]
    cases r (String.ofList known) with
    | some value => rfl
    | none => exact ih

/-- The name itself comes first, then the beginnings, unless there are braces. -/
theorem found?_eq (p : Placeholder) :
    found? r p = (r p.name).or (if p.braced then none
      else (beginnings p.name.toList).findSome? fun way =>
        (r (.ofList way.1)).map fun v => v ++ .ofList way.2) := by
  have h := lookUp_outcome (r := r) p
  rw [lookUp, Traced.bind_ok (a := r p.name) rfl] at h
  cases hv : r p.name with
  | some v => rw [found?_of_known hv, Option.some_or]
  | none =>
    rw [hv] at h
    rw [Option.none_or]
    cases hb : p.braced with
    | true =>
      rw [hb] at h
      exact (Except.ok.inj h).symm
    | false =>
      rw [hb] at h
      replace h := (fallBack_outcome_eq ..).symm.trans h
      rw [cuts_nil_eq_beginnings] at h
      exact (Except.ok.inj h).symm

theorem replaces_of_found? {v : String} (h : found? r p = some v) : Replaces r p v := by
  rw [found?_eq, Option.or_eq_some_iff] at h
  obtain h | ⟨hn, h⟩ := h
  · exact .known h
  · obtain ⟨name, braced⟩ := p
    cases braced with
    | true => cases h
    | false =>
      obtain ⟨longer, ⟨known, rest⟩, shorter, hways, hv, hlonger⟩ := List.findSome?_eq_some_iff.1 h
      obtain ⟨value, hvalue, rfl⟩ := Option.map_eq_some_iff.1 hv
      have hpair := beginnings_pairwise name.toList
      rw [hways] at hpair
      refine .beginning hn (mem_beginnings_iff.1 ?_) hvalue fun known' rest' hs hlt => ?_
      · rw [hways]
        exact List.mem_append_right _ List.mem_cons_self
      · have hmem := mem_beginnings_iff.2 hs
        rw [hways, List.mem_append, List.mem_cons] at hmem
        obtain hmem | heq | hmem := hmem
        · exact Option.map_eq_none_iff.1 (hlonger _ hmem)
        · cases heq
          exact absurd hlt (Nat.lt_irrefl _)
        · have := List.rel_of_pairwise_cons (List.pairwise_append.1 hpair).2.1 hmem
          exact absurd hlt (Nat.lt_asymm this)

theorem found?_of_replaces {v : String} (h : Replaces r p v) : found? r p = some v := by
  cases h with
  | known h => exact found?_of_known h
  | @beginning name value known rest hn hs hv hlongest =>
    obtain ⟨longer, shorter, hways⟩ := List.append_of_mem (mem_beginnings_iff.2 hs)
    have hpair := beginnings_pairwise name.toList
    rw [hways, List.pairwise_append] at hpair
    rw [found?_eq, hn, Option.none_or]
    refine List.findSome?_eq_some_iff.2 ⟨longer, _, shorter, hways, ?_, ?_⟩
    · rw [hv, Option.map_some]
    · rintro ⟨known', rest'⟩ hmem
      have hs' : Splits name known' rest' := by
        rw [← mem_beginnings_iff, hways]
        exact List.mem_append_left _ hmem
      rw [hlongest known' rest' hs' (hpair.2.2 _ hmem _ List.mem_cons_self), Option.map_none]

theorem found?_eq_some_iff {v : String} : found? r p = some v ↔ Replaces r p v :=
  ⟨replaces_of_found?, found?_of_replaces⟩

/-! ## What is asked for -/

/-- The names that are tried for a placeholder, in order. -/
def namesFor (p : Placeholder) : List String :=
  p.name :: if p.braced then [] else (beginnings p.name.toList).map fun way => .ofList way.1

/-- The items of a list up to and including the first with a property. -/
def upTo {α : Type} (stop : α → Bool) : List α → List α
  | [] => []
  | a :: as => if stop a then [a] else a :: upTo stop as

theorem found?_eq_none_iff : found? r p = none ↔ ∀ name ∈ namesFor p, r name = none := by
  rw [found?_eq, Option.or_eq_none_iff, namesFor, List.forall_mem_cons]
  refine and_congr_right fun _ => ?_
  split
  · simp
  · rw [List.findSome?_eq_none_iff, List.forall_mem_map]
    exact forall₂_congr fun way _ => Option.map_eq_none_iff

theorem fallBack_asked (name : String) (ways : List (List Char × List Char)) :
    (fallBack r name ways).asked =
      upTo (fun name => (r name).isSome) (ways.map fun way => .ofList way.1) := by
  induction ways with
  | nil => rfl
  | cons way ways ih =>
    obtain ⟨known, rest⟩ := way
    rw [fallBack, Traced.asked_bind_of_ok (a := r (String.ofList known)) rfl, List.map_cons, upTo]
    cases r (String.ofList known) with
    | some value => rfl
    | none => rw [ih]; rfl

theorem lookUp_asked (p : Placeholder) :
    (lookUp r p).asked = upTo (fun name => (r name).isSome) (namesFor p) := by
  rw [lookUp, Traced.asked_bind_of_ok (a := r p.name) rfl, namesFor, upTo]
  cases r p.name with
  | some v => rfl
  | none =>
    cases hb : p.braced with
    | true => rfl
    | false =>
      rw [← cuts_nil_eq_beginnings]
      exact congrArg (p.name :: ·) (fallBack_asked ..)

example : (lookUp (fun name => if name = "A" then some "1" else none) ⟨"A__B", false⟩).asked =
    ["A__B", "A_", "A"] := by
  cbv

theorem resolve_asked (p : Placeholder) : (resolve (some r) p).asked = (lookUp r p).asked := by
  rw [resolve, Traced.asked_bind_of_ok (lookUp_outcome p)]
  cases found? r p <;> exact List.append_nil _

theorem resolve_fails (p : Placeholder) : (resolve (some r) p).fails = (found? r p).isNone := by
  cases h : found? r p with
  | some v => rw [Traced.fails, resolve_outcome h, Option.isNone_some]
  | none => rw [Traced.fails, resolve_error_iff.2 ⟨h, rfl⟩, Option.isNone_none]

/-! ## Each spelling once -/

/-- The name is made of word characters, as that of a placeholder in a text is. -/
def Worded (p : Placeholder) : Prop := ∀ c ∈ p.name.toList, isWordChar c = true

theorem worded_of_mem_all {text : String} (h : p ∈ all text) : Worded p :=
  isWordChar_of_mem_pieces (mem_all_iff.1 h)

theorem spelling_ne_of_bare {name name' : String} (h : Worded ⟨name, false⟩) :
    spelling ⟨name, false⟩ ≠ spelling ⟨name', true⟩ := by
  intro heq
  have hname : name.toList = '\x7b' :: (name'.toList ++ ['\x7d']) := by
    simpa [spelling] using congrArg String.toList heq
  exact head?_ne_brace h (by rw [hname, List.head?_cons])

theorem spelling_inj {q : Placeholder} (hp : Worded p) (hq : Worded q) :
    p.spelling = q.spelling ↔ p = q := by
  refine ⟨fun h => ?_, congrArg _⟩
  obtain ⟨name, braced⟩ := p
  obtain ⟨name', braced'⟩ := q
  cases braced <;> cases braced'
  · simpa [spelling] using h
  · exact absurd h (spelling_ne_of_bare hp)
  · exact absurd h.symm (spelling_ne_of_bare hq)
  · simpa [spelling] using h

/-- The first placeholder of each spelling. -/
def firsts : List Placeholder → List Placeholder
  | [] => []
  | p :: ps => p :: (firsts ps).filter fun q => q.spelling ≠ p.spelling

theorem firsts_spelling_nodup (ps : List Placeholder) : ((firsts ps).map spelling).Nodup := by
  induction ps with
  | nil => exact List.nodup_nil
  | cons p ps ih =>
    rw [firsts, List.map_cons, List.nodup_cons]
    refine ⟨?_, ih.sublist (List.filter_sublist.map _)⟩
    intro h
    obtain ⟨q, hq, heq⟩ := List.mem_map.1 h
    simpa [heq] using List.of_mem_filter hq

theorem firsts_sublist (ps : List Placeholder) : (firsts ps).Sublist ps := by
  induction ps with
  | nil => exact .slnil
  | cons p ps ih => exact .cons_cons p (List.filter_sublist.trans ih)

theorem mem_firsts_iff {ps : List Placeholder} (hps : ∀ q ∈ ps, Worded q) :
    p ∈ firsts ps ↔ p ∈ ps := by
  refine ⟨fun h => (firsts_sublist ps).subset h, fun h => ?_⟩
  induction ps with
  | nil => cases h
  | cons q ps ih =>
    obtain ⟨hq, hps⟩ := List.forall_mem_cons.1 hps
    obtain rfl | h := List.mem_cons.1 h
    · exact List.mem_cons_self
    · by_cases hpq : p = q
      · exact hpq ▸ List.mem_cons_self
      · refine List.mem_cons_of_mem _ (List.mem_filter.2 ⟨ih hps h, decide_eq_true ?_⟩)
        rwa [Ne, spelling_inj (hps p h) hq]

/-- The names that are tried for the placeholders of a list, up to the first without a replacement. -/
def namesTried (r : Resolver) (ps : List Placeholder) : List String :=
  (upTo (fun p => (resolve (some r) p).fails) ps).flatMap fun p =>
    upTo (fun name => (r name).isSome) (namesFor p)

theorem filter_firsts_cons {ps : List Placeholder} (hp : Worded p) (hps : ∀ q ∈ ps, Worded q)
    (fresh : Placeholder → Bool) :
    ((firsts ps).filter fun q => q.spelling ≠ p.spelling).filter fresh =
      (firsts ps).filter fun q => fresh q && q != p := by
  rw [List.filter_filter]
  refine List.filter_congr fun q hq => ?_
  have hq' := hps q ((firsts_sublist ps).subset hq)
  rw [bne, beq_eq_decide, ← decide_not, decide_eq_decide.2 (not_congr (spelling_inj hq' hp))]

theorem upTo_cons_of_stop {α : Type} {stop : α → Bool} {a : α} (h : stop a = true) (as : List α) :
    upTo stop (a :: as) = [a] := by
  rw [upTo, if_pos h]

theorem upTo_cons_of_not_stop {α : Type} {stop : α → Bool} {a : α} (h : stop a = false)
    (as : List α) : upTo stop (a :: as) = a :: upTo stop as := by
  simp [upTo, h]

theorem lookup_isNone_of_known {known : Table} (hknown : (known.lookup p).isSome)
    (q : Placeholder) : ((known.lookup q).isNone && q != p) = (known.lookup q).isNone := by
  by_cases hq : q = p
  · rw [hq, Option.isNone_eq_false_iff.2 hknown, Bool.false_and]
  · rw [bne_iff_ne.2 hq, Bool.and_true]

theorem lookup_isNone_cons (known : Table) (v : String) (q : Placeholder) :
    ((known.lookup q).isNone && q != p) = (List.lookup q ((p, v) :: known)).isNone := by
  rw [List.lookup_cons]
  cases hq : q == p <;> simp [bne, hq]

theorem resolveAll_asked {known : Table} {ps : List Placeholder} (hps : ∀ q ∈ ps, Worded q) :
    (resolveAll (some r) known ps).asked =
      namesTried r ((firsts ps).filter fun q => (known.lookup q).isNone) := by
  induction ps generalizing known with
  | nil => rfl
  | cons p ps ih =>
    obtain ⟨hp, hps⟩ := List.forall_mem_cons.1 hps
    rw [resolveAll, firsts, List.filter_cons, filter_firsts_cons hp hps]
    split
    case isTrue hknown =>
      rw [ih hps, Option.isNone_eq_false_iff.2 hknown, if_neg Bool.false_ne_true]
      simp only [lookup_isNone_of_known hknown]
    case isFalse hknown =>
      have hnone : (known.lookup p).isNone = true := by
        rwa [Bool.not_eq_true, Option.isSome_eq_false_iff] at hknown
      rw [if_pos hnone, namesTried]
      cases hf : found? r p with
      | none =>
        rw [Traced.asked_bind_of_error (resolve_error_iff.2 ⟨hf, rfl⟩), resolve_asked, lookUp_asked,
          upTo_cons_of_stop (by rw [resolve_fails, hf, Option.isNone_none])]
        simp
      | some v =>
        rw [Traced.asked_bind_of_ok (resolve_outcome hf), resolve_asked, lookUp_asked, ih hps,
          upTo_cons_of_not_stop (by rw [resolve_fails, hf, Option.isNone_some])]
        simp only [lookup_isNone_cons known v, namesTried, List.flatMap_cons]

theorem expand_asked (text : String) :
    (expand (some r) text).asked = namesTried r (firsts (all text)) := by
  have hall : (resolveAll (some r) [] (all text)).asked =
      namesTried r ((firsts (all text)).filter fun q => (List.lookup q ([] : Table)).isNone) :=
    resolveAll_asked fun _ => worded_of_mem_all
  have hasked : (expand (some r) text).asked = (resolveAll (some r) [] (all text)).asked := by
    rw [expand]
    obtain ⟨table, h⟩ | ⟨f, h⟩ := (resolveAll (some r) [] (all text)).ok_or_error
    · rw [Traced.asked_bind_of_ok h]
      exact List.append_nil _
    · rw [Traced.asked_bind_of_error h]
  rw [hasked, hall]
  simp

/-! ## The text that comes out -/

/-- What is written for a piece. -/
def Piece.Becomes (r : Resolver) : Piece → List Char → Prop
  | .literal c, part => part = [c]
  | .placeholder p, part => ∃ v, Replaces r p v ∧ part = v.toList

theorem Piece.becomes_iff {piece : Piece} {part : List Char} :
    piece.Becomes r part ↔
      (∀ p, piece = .placeholder p → (found? r p).isSome) ∧ part = piece.substitute r := by
  cases piece with
  | literal c => simp [Becomes, substitute]
  | placeholder p => cases h : found? r p <;> simp [Becomes, substitute, ← found?_eq_some_iff, h]

theorem forall₂_becomes_iff {ps : List Piece} {parts : List (List Char)} :
    List.Forall₂ (Piece.Becomes r) ps parts ↔
      (∀ p, .placeholder p ∈ ps → (found? r p).isSome) ∧ parts = ps.map (Piece.substitute r) := by
  induction ps generalizing parts with
  | nil => simp
  | cons piece ps ih =>
    rw [List.forall₂_cons_left_iff]
    simp only [ih, Piece.becomes_iff]
    constructor
    · rintro ⟨part, parts, ⟨hpiece, rfl⟩, ⟨hps, rfl⟩, rfl⟩
      refine ⟨fun p hp => ?_, rfl⟩
      obtain heq | hp := List.mem_cons.1 hp
      · exact hpiece p heq.symm
      · exact hps p hp
    · rintro ⟨hfound, rfl⟩
      exact ⟨_, _, ⟨fun p hp => hfound p (hp ▸ List.mem_cons_self), rfl⟩,
        ⟨fun p hp => hfound p (List.mem_cons_of_mem _ hp), rfl⟩, rfl⟩

theorem expand_ok_iff_becomes {text result : String} :
    (expand (some r) text).outcome = .ok result ↔
      ∃ parts, List.Forall₂ (Piece.Becomes r) (pieces text.toList) parts ∧
        result = .ofList parts.flatten := by
  simp only [expand_ok_iff, mem_all_iff, forall₂_becomes_iff, substituted, List.flatMap_def]
  constructor
  · rintro ⟨hfound, rfl⟩
    exact ⟨_, ⟨hfound, rfl⟩, rfl⟩
  · rintro ⟨parts, ⟨hfound, rfl⟩, rfl⟩
    exact ⟨hfound, rfl⟩

example : (expand (some fun name => if name = "A" then some "$A" else none) "$A-$\x7bA\x7d$A_x").outcome =
    .ok "$A-$A$A_x" := by
  cbv

/-- **Each spelling is looked up once, by its names in turn.** The spellings come in the order in
which they first occur, up to the first without a replacement; of each, the name is asked for and
then, without braces, its beginnings before a `_`, the longest first, until one is known. That one is
what `Replaces` goes by, and a placeholder has no replacement only if none is known. -/
theorem expand_asks (r : Resolver) (text : String) :
    (expand (some r) text).asked =
        ((upTo (fun p => (resolve (some r) p).fails) (firsts (all text))).flatMap fun p =>
          upTo (fun name => (r name).isSome) (namesFor p)) ∧
      (firsts (all text)).Sublist (all text) ∧ (∀ p, p ∈ firsts (all text) ↔ p ∈ all text) ∧
      ((firsts (all text)).map spelling).Nodup ∧
      (∀ p v, (resolve (some r) p).outcome = .ok v ↔ Replaces r p v) ∧
      (∀ p f, (resolve (some r) p).outcome = .error f ↔
        (∀ name ∈ namesFor p, r name = none) ∧ f = .expansion p .unknown) ∧
      ∀ result, (expand (some r) text).outcome = .ok result ↔
        ∃ parts, List.Forall₂ (Piece.Becomes r) (pieces text.toList) parts ∧
          result = .ofList parts.flatten :=
  ⟨expand_asked text, firsts_sublist _,
    fun _ => mem_firsts_iff fun _ => worded_of_mem_all, firsts_spelling_nodup _,
    fun _ _ => resolve_ok_iff.trans found?_eq_some_iff,
    fun _ _ => resolve_error_iff.trans (and_congr_left' found?_eq_none_iff),
    fun _ => expand_ok_iff_becomes⟩

end GuardTree.Placeholder
