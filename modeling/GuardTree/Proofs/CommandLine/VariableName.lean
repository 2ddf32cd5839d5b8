import GuardTree.CommandLine.Variable
import GuardTree.Proofs.Placeholder.Cutting
import GuardTree.Proofs.Placeholder.Lookups
import GuardTree.Proofs.Tree.EntryList
import Mathlib

/-! # Names of variables and names of placeholders

A variable given by hand has a name of name characters, a placeholder one of word characters. In
ASCII these are the same, elsewhere they are not: some variables are taken and never put in, and
some placeholders cannot be given a value (`given_meets_names`, `given_misses_names`).
-/

namespace GuardTree

set_option autoImplicit false

open Text

namespace Placeholder

variable {name : String} {p : Placeholder}

/-! ## The text of one placeholder -/

/-- The text `${NAME}` is one placeholder, and has this name. -/
def IsName (name : String) : Prop :=
  ∃ p, pieces (spelling ⟨name, true⟩).toList = [.placeholder p] ∧ p.name = name

theorem toList_spelling_braced (name : String) :
    (spelling ⟨name, true⟩).toList = '$' :: '\x7b' :: (name.toList ++ ['\x7d']) := by
  simp [spelling]

theorem name_ne_of_mem_all {text : String} (h : p ∈ all text) : p.name ≠ "" := by
  obtain ⟨after, rest, -, ht⟩ := exists_takes_of_cut (cut_pieces text.toList) (mem_all_iff.1 h)
  cases ht with
  | braced hrun => simpa using hrun.ne_nil
  | bare hrun => simpa using hrun.ne_nil

theorem takes_braced (hne : name ≠ "") (hwords : ∀ c ∈ name.toList, isWordChar c = true) :
    Takes ('\x7b' :: (name.toList ++ ['\x7d'])) ⟨name, true⟩ [] := by
  have hrun : Run (name.toList ++ ['\x7d']) name.toList ['\x7d'] := by
    refine ⟨rfl, ?_, hwords, ?_⟩
    · simpa using hne
    · intro c hc
      obtain rfl : '\x7d' = c := Option.some.inj hc
      decide
  have htakes := Takes.braced hrun
  rwa [String.ofList_toList] at htakes

theorem isName_iff : IsName name ↔ name ≠ "" ∧ ∀ c ∈ name.toList, isWordChar c = true := by
  constructor
  · intro h
    obtain ⟨p, hp, rfl⟩ := h
    have hmem : .placeholder p ∈ pieces (spelling ⟨p.name, true⟩).toList := by
      rw [hp]
      exact List.mem_singleton_self _
    exact ⟨name_ne_of_mem_all (mem_all_iff.2 hmem), isWordChar_of_mem_pieces hmem⟩
  · intro h
    obtain ⟨hne, hwords⟩ := h
    refine ⟨⟨name, true⟩, ?_, rfl⟩
    rw [toList_spelling_braced]
    exact pieces_of_cut (.placeholder (takes_braced hne hwords) .nil)

/-- The names that occur in texts are those that can stand between braces. -/
theorem exists_mem_all_iff : (∃ text, ∃ p ∈ all text, p.name = name) ↔ IsName name := by
  constructor
  · intro h
    obtain ⟨text, p, hp, rfl⟩ := h
    exact isName_iff.2 ⟨name_ne_of_mem_all hp, worded_of_mem_all hp⟩
  · intro h
    obtain ⟨p, hp, hname⟩ := h
    refine ⟨spelling ⟨name, true⟩, p, mem_all_iff.2 ?_, hname⟩
    rw [hp]
    exact List.mem_singleton_self _

/-! ## Its expansion -/

theorem expand_of_isName (h : IsName name) {r : Resolver} {value : String}
    (hr : r name = some value) :
    (expand (some r) (spelling ⟨name, true⟩)).outcome = .ok value := by
  obtain ⟨p, hp, rfl⟩ := h
  have hfound : found? r p = some value := found?_of_known hr
  rw [expand_ok_iff, all, substituted, hp]
  constructor
  · intro q hq
    obtain rfl : q = p := by simpa using hq
    rw [hfound]
    rfl
  · simp [Piece.substitute, hfound]

/-- After an opening brace there is a name only up to the closing one. -/
theorem run_of_takes_brace {cs rest : List Char} (h : Takes ('\x7b' :: cs) p rest) :
    Run cs p.name.toList ('\x7d' :: rest) := by
  generalize hbrace : '\x7b' :: cs = cs' at h
  cases h with
  | braced hrun =>
    cases hbrace
    rwa [String.toList_ofList]
  | bare hrun =>
    subst hbrace
    exact absurd rfl hrun.head?_ne

theorem not_occursIn_of_not_isName (h : ¬ IsName name)
    (hnames : ∀ c ∈ name.toList, isNameChar c = true) :
    occursIn (spelling ⟨name, true⟩) = false := by
  have hnot : ∀ c, isNameChar c = false → c ∉ name.toList := by
    intro c hc hmem
    rw [hnames c hmem] at hc
    cases hc
  rw [← Bool.not_eq_true, occursIn_iff]
  intro hoccurs
  obtain ⟨p, hp⟩ := hoccurs
  rw [toList_spelling_braced] at hp
  obtain ⟨after, rest, hsuffix, htakes⟩ := exists_takes_of_cut (cut_pieces _) hp
  have hafter : after = '\x7b' :: (name.toList ++ ['\x7d']) := by
    obtain heq | hsuffix := List.suffix_cons_iff.1 hsuffix
    · exact (List.cons.inj heq).2
    · have hdollar : '$' ∈ '\x7b' :: (name.toList ++ ['\x7d']) :=
        hsuffix.subset List.mem_cons_self
      simp [hnot '$' (by decide)] at hdollar
  subst hafter
  have hrun := run_of_takes_brace htakes
  have hclose : '\x7d' ∉ p.name.toList := by
    intro hmem
    exact absurd (hrun.words _ hmem) (by decide)
  obtain ⟨hname, -, -⟩ := (List.append_cons_inj_of_notMem (hnot '\x7d' (by decide))
    List.not_mem_nil).1 hrun.append.symm
  apply h
  rw [isName_iff, hname]
  refine ⟨?_, hrun.words⟩
  rw [← String.toList_inj.ne, hname]
  exact hrun.ne_nil

theorem expand_of_not_isName (h : ¬ IsName name)
    (hnames : ∀ c ∈ name.toList, isNameChar c = true) (r : Option Resolver) :
    expand r (spelling ⟨name, true⟩) = pure (spelling ⟨name, true⟩) :=
  expand_of_not_occursIn (not_occursIn_of_not_isName h hnames) r

end Placeholder

namespace CommandLine

open Placeholder

variable {name value : String}

/-! ## Variables given by hand -/

/-- `NAME=VALUE` is taken as this variable. -/
def Given (name value : String) : Prop := parseVariable (name ++ "=" ++ value) = .ok (name, value)

theorem cutAtEquals?_append {before : List Char} (h : '=' ∉ before) (after : List Char) :
    cutAtEquals? (before ++ '=' :: after) = some (before, after) := by
  have hbefore : ∀ c ∈ before, (c != '=') = true := by
    intro c hc
    rw [bne_iff_ne]
    rintro rfl
    exact h hc
  rw [cutAtEquals?, List.dropWhile_append_of_pos hbefore, List.takeWhile_append_of_pos hbefore]
  simp

theorem isVariableName_iff :
    isVariableName name.toList = true ↔ name ≠ "" ∧ ∀ c ∈ name.toList, isNameChar c = true := by
  simp [isVariableName]

theorem parseVariable_append (h : '=' ∉ name.toList) :
    parseVariable (name ++ "=" ++ value) =
      if isVariableName name.toList then .ok (name, value) else .error (.badName name) := by
  have htext : (name ++ "=" ++ value).toList = name.toList ++ '=' :: value.toList := by simp
  rw [parseVariable, htext, cutAtEquals?_append h]
  simp

theorem given_iff (h : '=' ∉ name.toList) :
    Given name value ↔ name ≠ "" ∧ ∀ c ∈ name.toList, isNameChar c = true := by
  rw [Given, parseVariable_append h, ← isVariableName_iff]
  split
  case isTrue hname => exact iff_of_true rfl hname
  case isFalse hname =>
    apply iff_of_false
    · intro hok
      cases hok
    · exact hname

theorem resolver_ofList_singleton (environment : Resolver) :
    (Sources.ofList [(name, value)] false).resolver environment name = some value := by
  have hvalue : (Sources.ofList [(name, value)] false).given.get? name = some value := by
    rw [Sources.ofList, OrderedMap.get?_eq_lookup, OrderedMap.toList_ofList]
    simp [EntryList.insertAll, EntryList.insert]
  rw [Sources.resolver, hvalue]

theorem forall_mem_of_toList_eq {p : Char → Bool} {c : Char} (h : name.toList = [c])
    (hc : p c = true) : ∀ x ∈ name.toList, p x = true := by
  rw [h, List.forall_mem_singleton]
  exact hc

theorem given_iff_isName_of_ascii (h : '=' ∉ name.toList)
    (hascii : ∀ c ∈ name.toList, isAscii c = true) : Given name value ↔ IsName name := by
  rw [given_iff h, isName_iff]
  apply and_congr_right
  intro _
  apply forall₂_congr
  intro c hc
  rw [isNameChar_ascii (hascii c hc), isWordChar_ascii (hascii c hc)]

/-- **A variable is put in if its name is that of a placeholder.** Variables are taken by their name
characters, placeholders cut off by their word characters, and every name so made occurs in some
text. A variable that is taken takes the place of its name between braces if this is a placeholder;
otherwise the text stays as it is. ASCII names are good for both or for neither. -/
theorem given_meets_names (name value : String) (h : '=' ∉ name.toList) :
    (Given name value ↔ name ≠ "" ∧ ∀ c ∈ name.toList, isNameChar c = true) ∧
      (IsName name ↔ name ≠ "" ∧ ∀ c ∈ name.toList, isWordChar c = true) ∧
      ((∃ text, ∃ p ∈ all text, p.name = name) ↔ IsName name) ∧
      (Given name value → ∀ environment r,
        r = (Sources.ofList [(name, value)] false).resolver environment →
        (IsName name → (expand (some r) (spelling ⟨name, true⟩)).outcome = .ok value) ∧
          (¬ IsName name →
            expand (some r) (spelling ⟨name, true⟩) = pure (spelling ⟨name, true⟩))) ∧
      ((∀ c ∈ name.toList, isAscii c = true) → (Given name value ↔ IsName name)) := by
  refine ⟨given_iff h, isName_iff, exists_mem_all_iff, ?_, given_iff_isName_of_ascii h⟩
  intro hgiven environment r hr
  subst hr
  refine ⟨fun hname => expand_of_isName hname (resolver_ofList_singleton environment), ?_⟩
  intro hname
  exact expand_of_not_isName hname ((given_iff h).1 hgiven).2 _

set_option maxRecDepth 10000 in
/-- A letter past ASCII is good for both. -/
theorem given_meets_names_omega :
    Given "Ω" "1" ∧
      (expand (some ((Sources.ofList [("Ω", "1")] false).resolver fun _ => none))
        "$\x7bΩ\x7d").outcome = .ok "1" := by
  have hname : ∀ c ∈ "Ω".toList, isNameChar c = true :=
    forall_mem_of_toList_eq rfl (by decide)
  have hword : ∀ c ∈ "Ω".toList, isWordChar c = true :=
    forall_mem_of_toList_eq rfl (by decide)
  obtain ⟨hgiven, hplaceholder, -, hput, -⟩ := given_meets_names "Ω" "1" (by decide)
  have hgiven' : Given "Ω" "1" := hgiven.2 ⟨by decide, hname⟩
  exact ⟨hgiven', (hput hgiven' _ _ rfl).1 (hplaceholder.2 ⟨by decide, hword⟩)⟩

set_option maxRecDepth 10000 in
/-- A raised number is a name character only, and its variable is not put in. An accent that is a
character of its own is a word character only, and no variable can be given for its placeholder. -/
theorem given_misses_names :
    (parseVariable "²=x" = .ok ("²", "x") ∧
        (expand (some ((Sources.ofList [("²", "x")] false).resolver fun _ => none))
          "$\x7b²\x7d").outcome = .ok "$\x7b²\x7d") ∧
      parseVariable "\u0301=x" = .error (.badName "\u0301") ∧
      pieces "$\x7b\u0301\x7d".toList = [.placeholder ⟨"\u0301", true⟩] := by
  have hraised : ∀ c ∈ "²".toList, isNameChar c = true :=
    forall_mem_of_toList_eq rfl (by decide)
  have hnot : ¬ IsName "²" := by
    intro h
    have hword := (isName_iff.1 h).2 '²' (List.mem_singleton_self _)
    have hother : isWordChar '²' = false := by decide
    rw [hother] at hword
    cases hword
  have haccent : ∀ c ∈ "\u0301".toList, isWordChar c = true :=
    forall_mem_of_toList_eq rfl (by decide)
  have hrefused : isVariableName "\u0301".toList = false := by decide
  have hgiven : Given "²" "x" := (given_iff (by decide)).2 ⟨by decide, hraised⟩
  have hparse : parseVariable ("\u0301" ++ "=" ++ "x") = _ := parseVariable_append (by decide)
  rw [hrefused] at hparse
  exact ⟨⟨hgiven, congrArg Traced.outcome (expand_of_not_isName hnot hraised _)⟩, hparse,
    pieces_of_cut (.placeholder (takes_braced (by decide) haccent) .nil)⟩

end CommandLine

end GuardTree
