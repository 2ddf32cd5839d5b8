import GuardTree.Proofs.Formula.Segments
import GuardTree.Proofs.Placeholder.Substitution

/-! # Literals of text and the placeholders in them

A literal ends at the first quote of its kind that no backslash stands before (`closes`). A text is
read from whatever stands for its characters in one (`stringBody_of_stands`). Values without quotes
and backslashes leave a literal whole when they take the place of placeholders
(`closes_substituted`).
-/

namespace GuardTree.Formula

set_option autoImplicit false

open Text Placeholder

/-! ## Where a literal ends -/

/-- Whether the quote that closes a literal is the last character of a text and the first one that
no backslash stands before. `escaped` tells that one stands before the text. -/
def closes (quote : Char) : Bool → List Char → Bool
  | _, [] => false
  | true, _ :: r => closes quote false r
  | false, c :: r =>
    if c = '\\' then closes quote true r
    else if c = quote then r.isEmpty
    else closes quote false r

theorem stringBody_cons {quote c : Char} (hc : c ≠ '\\') (r : List Char) :
    stringBody quote (c :: r) = if c = quote then some ([], [c], r)
      else (stringBody quote r).map fun (s, text, rest) => (c :: s, c :: text, rest) := by
  rw [stringBody]
  · exact fun h _ => hc h
  · exact fun _ _ h _ => hc h

theorem closes_cons {quote c : Char} (hc : c ≠ '\\') (r : List Char) :
    closes quote false (c :: r) = if c = quote then r.isEmpty else closes quote false r := by
  rw [closes, if_neg hc]

theorem ne_backslash {c : Char} {r : List Char} (hn : c = '\\' → r = [] → False)
    (hc : ∀ e r', c = '\\' → r = e :: r' → False) : c ≠ '\\' := by
  intro h
  cases r with
  | nil => exact hn h rfl
  | cons e r' => exact hc e r' h rfl

theorem closes_of_stringBody {quote : Char} {cs s text rest : List Char}
    (h : stringBody quote cs = some (s, text, rest)) : closes quote false text = true := by
  fun_induction stringBody quote cs generalizing s text rest with
  | case1 => cases h
  | case2 => cases h
  | case3 e r ih =>
    obtain ⟨⟨s', text', rest'⟩, h', he⟩ := Option.map_eq_some_iff.1 h
    cases he
    have hclose := ih h'
    exact hclose
  | case4 r hn hc =>
    cases h
    rw [closes_cons (ne_backslash hn hc), if_pos rfl]
    rfl
  | case5 c r hn hc hq ih =>
    obtain ⟨⟨s', text', rest'⟩, h', he⟩ := Option.map_eq_some_iff.1 h
    cases he
    rw [closes_cons (ne_backslash hn hc), if_neg hq]
    exact ih h'

theorem stringBody_of_closes {quote : Char} {text : List Char}
    (h : closes quote false text = true) :
    ∃ s, ∀ rest, stringBody quote (text ++ rest) = some (s, text, rest) := by
  fun_induction stringBody quote text with
  | case1 => cases h
  | case2 => cases h
  | case3 e r ih =>
    obtain ⟨s, hs⟩ := ih h
    refine ⟨unescape e :: s, fun rest => ?_⟩
    rw [List.cons_append, List.cons_append, stringBody, hs]
    rfl
  | case4 r hn hc =>
    have hb := ne_backslash hn hc
    rw [closes_cons hb, if_pos rfl, List.isEmpty_iff] at h
    refine ⟨[], fun rest => ?_⟩
    rw [h, List.cons_append, stringBody_cons hb, if_pos rfl]
    rfl
  | case5 c r hn hc hq ih =>
    have hb := ne_backslash hn hc
    rw [closes_cons hb, if_neg hq] at h
    obtain ⟨s, hs⟩ := ih h
    refine ⟨c :: s, fun rest => ?_⟩
    rw [List.cons_append, stringBody_cons hb, if_neg hq, hs]
    rfl

/-- A literal does not depend on what follows it. -/
theorem stringBody_congr {quote : Char} {cs s text rest : List Char}
    (h : stringBody quote cs = some (s, text, rest)) (y : List Char) :
    stringBody quote (text ++ y) = some (s, text, y) := by
  obtain ⟨s', hs'⟩ := stringBody_of_closes (closes_of_stringBody h)
  have heq := hs' rest
  rw [stringBody_append h, h] at heq
  cases heq
  exact hs' y

/-! ## What stands for a text -/

/-- `Stands quote c text`: inside a literal, `text` stands for the character `c`. After a backslash
every character stands for itself, but for the two that stand for a line feed and a tab. -/
inductive Stands (quote : Char) : Char → List Char → Prop
  | plain {c : Char} (hq : c ≠ quote) (hb : c ≠ '\\') : Stands quote c [c]
  | escaped {c : Char} (hn : c ≠ 'n') (ht : c ≠ 't') : Stands quote c ['\\', c]
  | lineFeed : Stands quote '\n' ['\\', 'n']
  | tab : Stands quote '\t' ['\\', 't']

theorem unescape_of_ne {c : Char} (hn : c ≠ 'n') (ht : c ≠ 't') : unescape c = c := by
  unfold unescape
  split
  · exact absurd rfl hn
  · exact absurd rfl ht
  · rfl

theorem Stands.stringBody_append {quote c : Char} {text : List Char} (h : Stands quote c text)
    (r : List Char) : stringBody quote (text ++ r) =
      (stringBody quote r).map fun (s, more, rest) => (c :: s, text ++ more, rest) := by
  cases h with
  | plain hq hb =>
    rw [List.singleton_append, stringBody_cons hb, if_neg hq]
    rfl
  | escaped hn ht =>
    rw [List.cons_append, List.singleton_append, stringBody, unescape_of_ne hn ht]
    rfl
  | lineFeed =>
    rw [List.cons_append, List.singleton_append, stringBody]
    rfl
  | tab =>
    rw [List.cons_append, List.singleton_append, stringBody]
    rfl

/-- A text is read from whatever stands for its characters, up to the closing quote. -/
theorem stringBody_of_stands {quote : Char} (hq : quote ≠ '\\') {s : List Char}
    {texts : List (List Char)} (h : List.Forall₂ (Stands quote) s texts) (rest : List Char) :
    stringBody quote (texts.flatten ++ quote :: rest) =
      some (s, texts.flatten ++ [quote], rest) := by
  induction h with
  | nil => rw [List.flatten_nil, List.nil_append, stringBody_cons hq, if_pos rfl, List.nil_append]
  | cons hc _ ih =>
    rw [List.flatten_cons, List.append_assoc, hc.stringBody_append, ih, Option.map_some,
      List.append_assoc]

/-- A text without the quote and without backslashes stands for itself in a literal. -/
theorem stringBody_of_plain {quote : Char} (hq : quote ≠ '\\') {s : List Char}
    (hs : ∀ c ∈ s, c ≠ quote ∧ c ≠ '\\') (rest : List Char) :
    stringBody quote (s ++ quote :: rest) = some (s, s ++ [quote], rest) := by
  have hstands : List.Forall₂ (Stands quote) s (s.map fun c => [c]) :=
    List.forall₂_map_right_iff.2 (List.forall₂_same.2 fun c hc => .plain (hs c hc).1 (hs c hc).2)
  have hbody := stringBody_of_stands hq hstands rest
  rwa [← List.flatMap_def, List.flatMap_singleton'] at hbody

/-! ## What is put in -/

variable {r : Resolver} {cs : List Char} {t : Cut}

/-- The text may stand inside a literal: it neither ends it nor escapes what follows. -/
def Harmless (v : String) : Prop :=
  v ≠ "" ∧ ∀ c ∈ v.toList, c ≠ '"' ∧ c ≠ '\x27' ∧ c ≠ '\\'

theorem exists_append_of_closes {q : Char} {escaped : Bool} {text : List Char}
    (h : closes q escaped text = true) : ∃ body, text = body ++ [q] := by
  induction text generalizing escaped with
  | nil => simp [closes] at h
  | cons c text ih =>
    have hcons : ∀ {escaped}, closes q escaped text = true → ∃ body, c :: text = body ++ [q] := by
      intro escaped h
      obtain ⟨body, rfl⟩ := ih h
      exact ⟨c :: body, rfl⟩
    cases escaped with
    | true => exact hcons h
    | false =>
      rw [closes] at h
      split at h
      · exact hcons h
      · split at h
        case isTrue hq =>
          rw [List.isEmpty_iff] at h
          exact ⟨[], by rw [hq, h]; rfl⟩
        case isFalse => exact hcons h

theorem separates_quote {q : Char} (hq : q = '"' ∨ q = '\x27') : Separates q := by
  obtain rfl | rfl := hq <;> decide

theorem pieces_of_cutString {q : Char} (h : cutString q cs = .ok t) (hq : q = '"' ∨ q = '\x27') :
    closes q false t.more = true ∧ (∃ s, t.token = .str s) ∧
      pieces (q :: cs) = pieces (q :: t.more) ++ pieces t.rest := by
  have happ := cutString_append h
  have hsep := separates_quote hq
  unfold cutString at h
  split at h
  case h_2 => cases h
  case h_1 s text rest hs =>
    cases h
    have hc := closes_of_stringBody hs
    refine ⟨hc, ⟨_, rfl⟩, ?_⟩
    obtain ⟨body, hbody⟩ := exists_append_of_closes hc
    have hne : q ≠ '$' := by obtain rfl | rfl := hq <;> decide
    dsimp only at happ hbody ⊢
    rw [← happ, hbody, List.append_assoc, pieces_cons hne, pieces_cons hne, List.singleton_append,
      pieces_append hsep, pieces_append hsep, pieces_cons hne, pieces_cons hne]
    simp [pieces]

theorem closes_append {q : Char} {text : List Char} (h : ∀ c ∈ text, c ≠ q ∧ c ≠ '\\')
    (rest : List Char) : closes q false (text ++ rest) = closes q false rest := by
  induction text with
  | nil => rfl
  | cons c text ih =>
    obtain ⟨hq, hb⟩ := h c List.mem_cons_self
    rw [List.cons_append, closes_cons hb, if_neg hq]
    exact ih fun d hd => h d (List.mem_cons_of_mem _ hd)

theorem Harmless.closes_append {q : Char} {v : String} (hv : Harmless v)
    (hq : q = '"' ∨ q = '\x27') {escaped : Bool} {rest : List Char}
    (h : closes q false rest = true) : closes q escaped (v.toList ++ rest) = true := by
  have hplain : ∀ c ∈ v.toList, c ≠ q ∧ c ≠ '\\' := by
    intro c hc
    obtain ⟨h₁, h₂, h₃⟩ := hv.2 c hc
    obtain rfl | rfl := hq
    · exact ⟨h₁, h₃⟩
    · exact ⟨h₂, h₃⟩
  cases escaped with
  | false => rwa [Formula.closes_append hplain]
  | true =>
    -- The first character is escaped; there is one.
    obtain ⟨c, cs, hl⟩ := List.exists_cons_of_ne_nil fun hl => hv.1 (String.toList_eq_nil_iff.1 hl)
    rw [hl] at hplain ⊢
    rw [List.cons_append, closes, Formula.closes_append]
    · exact h
    · exact fun d hd => hplain d (List.mem_cons_of_mem _ hd)

theorem closes_dollar {q : Char} (hq : q = '"' ∨ q = '\x27') (escaped : Bool) (cs : List Char) :
    closes q escaped ('$' :: cs) = closes q false cs := by
  cases escaped with
  | true => rfl
  | false =>
    have hne : '$' ≠ q := by obtain rfl | rfl := hq <;> decide
    rw [closes_cons (by decide), if_neg hne]

/-- A literal stays closed where it was when harmless texts are put in. -/
theorem closes_substituted {q : Char} {escaped : Bool} {text : List Char}
    (hq : q = '"' ∨ q = '\x27') (h : closes q escaped text = true)
    (hp : ∀ p, .placeholder p ∈ pieces text → ∃ v, found? r p = some v ∧ Harmless v) :
    closes q escaped (substituted r text) = true := by
  unfold substituted
  fun_induction pieces text generalizing escaped with
  | case1 => exact absurd h (by cases escaped <;> simp [closes])
  | case2 cs p rest hcut ih =>
    obtain ⟨v, hv, hharm⟩ := hp p List.mem_cons_self
    obtain ⟨name, rfl, hname⟩ := cut?_eq_some hcut
    rw [closes_dollar hq, closes_append] at h
    · have hrest := ih h fun p hm => hp p (List.mem_cons_of_mem _ hm)
      rw [List.flatMap_cons, Piece.substitute, hv]
      exact hharm.closes_append hq hrest
    · intro c hc
      have hsep := hname c hc
      refine ⟨?_, ?_⟩
      · rintro rfl
        exact hsep (separates_quote hq)
      · rintro rfl
        exact hsep (by decide)
  | case3 cs hcut ih =>
    rw [closes_dollar hq] at h
    have hrest := ih h fun p hm => hp p (List.mem_cons_of_mem _ hm)
    rw [List.flatMap_cons, Piece.substitute, List.singleton_append, closes_dollar hq, hrest]
  | case4 c cs hc ih =>
    have hp' := fun p hm => hp p (List.mem_cons_of_mem _ hm)
    rw [List.flatMap_cons, Piece.substitute, List.singleton_append]
    cases escaped with
    | true => exact ih h hp'
    | false =>
      rw [closes] at h ⊢
      split at h
      case isTrue hb =>
        rw [if_pos hb]
        exact ih h hp'
      case isFalse hb =>
        rw [if_neg hb]
        split at h
        case isTrue hcq =>
          rw [List.isEmpty_iff] at h
          rw [if_pos hcq, h]
          simp [pieces]
        case isFalse hcq =>
          rw [if_neg hcq]
          exact ih h hp'

end GuardTree.Formula
