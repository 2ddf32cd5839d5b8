import GuardTree.Proofs.Formula.TokenEnds
import GuardTree.Text.Trim

/-! # The tokens tile the text

A text that the lexer takes apart is white space and then one piece after the other, a piece for
each token: the characters of the token and the white space after them (`Tiles`). Without that white
space the piece is the token and nothing else, wherever it stands (`lexemes_token`), and the offset
of a token is where its piece starts (`Tiles.split`).
-/

namespace GuardTree.Formula

set_option autoImplicit false

open Text

variable {c : Char} {r cs : List Char} {t : Cut} {offset : Nat} {l : Lexeme}
  {ls before after : List Lexeme}

/-! ## The text of a token -/

theorem lexemes_token (hc : isSpace c = false) (ht : cut c r = .ok t) :
    lexemes 0 (c :: t.more) = .ok [⟨t.token, 0⟩] := by
  have hstop := (endsAtSpace_cut c).stops ht (.inr breaks_nil)
  rw [List.append_nil] at hstop
  rw [lexemes_of_cut hc hstop, lexemes]
  rfl

/-- No token ends with white space. -/
theorem trimEnd_token (hc : isSpace c = false) (ht : cut c r = .ok t) :
    trimEnd (c :: t.more) = c :: t.more := by
  obtain hnil | ⟨text, d, hmore⟩ := List.eq_nil_or_concat' t.more
  · rw [hnil]
    exact trimEnd_append_of_not_isSpace [] hc
  · have hd := (endsAtSpace_cut c).solid ht d (by simp [hmore])
    rw [hmore, ← List.cons_append]
    exact trimEnd_append_of_not_isSpace (c :: text) hd

/-! ## Pieces -/

/-- The text, which starts at byte `offset`, is a piece for each token. -/
inductive Tiles : Nat → List Char → List Lexeme → Prop
  | nil (offset : Nat) : Tiles offset [] []
  | cons {offset : Nat} {piece rest : List Char} {t : Token} {ls : List Lexeme}
      (hne : piece ≠ []) (ht : tokenize (String.ofList (trimEnd piece)) = .ok [⟨t, 0⟩])
      (h : Tiles (offset + utf8Length piece) rest ls) :
      Tiles offset (piece ++ rest) (⟨t, offset⟩ :: ls)

theorem exists_tiles (h : lexemes offset cs = .ok ls) : ∃ gap rest, cs = gap ++ rest ∧
    (∀ c ∈ gap, isSpace c = true) ∧ Tiles (offset + utf8Length gap) rest ls := by
  fun_induction lexemes offset cs generalizing ls with
  | case1 offset =>
    cases h
    exact ⟨[], [], rfl, by simp, .nil offset⟩
  | case2 offset c r hc ih =>
    obtain ⟨gap, rest, rfl, hgap, htiles⟩ := ih h
    refine ⟨c :: gap, rest, rfl, List.forall_mem_cons.2 ⟨hc, hgap⟩, ?_⟩
    rwa [utf8Length_cons, ← Nat.add_assoc]
  | case3 => cases h
  | case4 offset c r hc t ht ih =>
    have hc : isSpace c = false := by simpa using hc
    obtain ⟨others, ho, hls⟩ := bind_eq_ok_iff.1 h
    cases hls
    obtain ⟨gap, rest, hrest, hgap, htiles⟩ := ih ho
    -- The white space before the next token belongs to the piece of this one.
    have htext : c :: r = (c :: t.more ++ gap) ++ rest := by
      rw [← cut_append ht, hrest]
      simp
    have htoken : tokenize (String.ofList (trimEnd (c :: t.more ++ gap))) = .ok [⟨t.token, 0⟩] := by
      rw [trimEnd_append_spaces _ hgap, trimEnd_token hc ht, tokenize, String.toList_ofList,
        lexemes_token hc ht]
    refine ⟨[], c :: r, rfl, by simp, ?_⟩
    rw [htext]
    refine .cons (by simp) htoken ?_
    rwa [utf8Length_append, utf8Length_cons, utf8Length_nil, Nat.add_zero, ← Nat.add_assoc,
      ← Nat.add_assoc]

/-- Where the first of the tokens starts, or `size` if there is none. -/
def startOf (ls : List Lexeme) (size : Nat) : Nat := (ls.head?.map Lexeme.offset).getD size

theorem Tiles.startOf_eq (h : Tiles offset cs ls) :
    startOf ls (offset + utf8Length cs) = offset := by
  cases h with
  | nil => rfl
  | cons => rfl

theorem utf8Length_pos (hne : cs ≠ []) : 0 < utf8Length cs := by
  obtain ⟨c, cs, rfl⟩ := List.exists_cons_of_ne_nil hne
  have := c.utf8Size_pos
  rw [utf8Length_cons]
  omega

theorem Tiles.offset_le (h : Tiles offset cs ls) : ∀ l ∈ ls, offset ≤ l.offset := by
  induction h with
  | nil => simp
  | cons _ _ _ ih =>
    refine List.forall_mem_cons.2 ⟨Nat.le_refl _, fun l hl => ?_⟩
    have := ih l hl
    omega

theorem Tiles.pairwise (h : Tiles offset cs ls) : (ls.map Lexeme.offset).Pairwise (· < ·) := by
  induction h with
  | nil => exact .nil
  | cons hne _ h ih =>
    refine List.pairwise_cons.2 ⟨List.forall_mem_map.2 fun l hl => ?_, ih⟩
    have := h.offset_le l hl
    have := utf8Length_pos hne
    dsimp only
    omega

/-- The piece of one token, between what stands before it and the pieces after it. -/
theorem Tiles.split (h : Tiles offset cs (before ++ l :: after)) :
    ∃ front piece rest, cs = front ++ (piece ++ rest) ∧ l.offset = offset + utf8Length front ∧
      piece ≠ [] ∧ tokenize (String.ofList (trimEnd piece)) = .ok [⟨l.token, 0⟩] ∧
        Tiles (l.offset + utf8Length piece) rest after := by
  induction before generalizing offset cs with
  | nil =>
    cases h with
    | cons hne ht h => exact ⟨[], _, _, rfl, rfl, hne, ht, h⟩
  | cons _ before ih =>
    cases h with
    | @cons _ first _ _ _ _ _ h =>
      obtain ⟨front, piece, rest, rfl, hl, hp⟩ := ih h
      refine ⟨first ++ front, piece, rest, (List.append_assoc ..).symm, ?_, hp⟩
      rw [hl, utf8Length_append, Nat.add_assoc]

/-! ## Pieces by their positions -/

/-- The characters of a text from one byte to another. -/
def charsBetween (s : String) (start stop : Nat) : List Char :=
  (String.Pos.Raw.extract s ⟨start⟩ ⟨stop⟩).toList

theorem charsBetween_eq {s : String} {front piece rest : List Char} {start stop : Nat}
    (h : s.toList = front ++ (piece ++ rest)) (hstart : start = utf8Length front)
    (hstop : stop = start + utf8Length piece) : charsBetween s start stop = piece := by
  have hlen : ∀ cs, utf8Length cs = String.utf8Len cs := fun cs =>
    (utf8ByteSize_ofList cs).symm.trans (String.utf8ByteSize_ofList cs)
  have hs : s = String.ofList (front ++ piece ++ rest) := by
    rw [List.append_assoc, ← h, String.ofList_toList]
  rw [charsBetween, hs, hstop, hstart, hlen, hlen, String.extract_of_valid, String.toList_ofList]

theorem isValid_of_toList {s : String} {front rest : List Char} {position : Nat}
    (h : s.toList = front ++ rest) (hp : position = utf8Length front) :
    (⟨position⟩ : String.Pos.Raw).IsValid s := by
  refine String.Pos.Raw.isValid_iff_exists_append.2
    ⟨String.ofList front, String.ofList rest, ?_, ?_⟩
  · rw [← String.ofList_append, ← h, String.ofList_toList]
  · rw [hp, ← utf8ByteSize_ofList]
    rfl

/-- **The tokens are a cut of the text.** Their offsets increase and are places between characters
inside the text, only white space stands before the first one, and what stands from one offset to
the next, or to the end, is by itself the one token, but for white space at its end. -/
theorem tokenize_tiles {s : String} (h : tokenize s = .ok ls) :
    (ls.map Lexeme.offset).Pairwise (· < ·) ∧
      (∀ l ∈ ls, (⟨l.offset⟩ : String.Pos.Raw).IsValid s ∧ l.offset < s.utf8ByteSize) ∧
      (∀ c ∈ charsBetween s 0 (startOf ls s.utf8ByteSize), isSpace c = true) ∧
      ∀ before l after, ls = before ++ l :: after →
        tokenize (String.ofList (trimEnd
          (charsBetween s l.offset (startOf after s.utf8ByteSize)))) = .ok [⟨l.token, 0⟩] := by
  obtain ⟨gap, text, hs, hgap, htiles⟩ := exists_tiles h
  have hsize : s.utf8ByteSize = 0 + utf8Length gap + utf8Length text := by
    rw [← utf8Length_toList, hs, utf8Length_append, Nat.zero_add]
  have hfirst : startOf ls s.utf8ByteSize = 0 + utf8Length gap := by
    rw [hsize]
    exact htiles.startOf_eq
  have hpiece : ∀ before l after, ls = before ++ l :: after → ∃ front piece rest,
      s.toList = front ++ (piece ++ rest) ∧ l.offset = utf8Length front ∧ piece ≠ [] ∧
        startOf after s.utf8ByteSize = l.offset + utf8Length piece ∧
          tokenize (String.ofList (trimEnd piece)) = .ok [⟨l.token, 0⟩] := by
    rintro before l after rfl
    obtain ⟨front, piece, rest, rfl, hl, hne, ht, hafter⟩ := htiles.split
    refine ⟨gap ++ front, piece, rest, ?_, ?_, hne, ?_, ht⟩
    · rw [hs, List.append_assoc]
    · rw [hl, utf8Length_append, Nat.zero_add]
    · rw [← hafter.startOf_eq, hsize, hl, utf8Length_append, utf8Length_append]
      congr 1
      omega
  refine ⟨htiles.pairwise, fun l hl => ?_, ?_, fun before l after hls => ?_⟩
  · obtain ⟨before, after, hls⟩ := List.append_of_mem hl
    obtain ⟨front, piece, rest, hs, hl, hne, -, -⟩ := hpiece before l after hls
    refine ⟨isValid_of_toList hs hl, ?_⟩
    have := utf8Length_pos hne
    rw [hl, ← utf8Length_toList, hs, utf8Length_append, utf8Length_append]
    omega
  · have hs : s.toList = [] ++ (gap ++ text) := hs
    rwa [charsBetween_eq hs utf8Length_nil.symm hfirst]
  · obtain ⟨front, piece, rest, hs, hl, -, hstop, ht⟩ := hpiece before l after hls
    rwa [charsBetween_eq hs hl hstop]

theorem tokenize_tiles_letters :
    tokenize " é  >\u00a0'ü >' " = .ok [⟨.ident "é", 1⟩, ⟨.gt, 5⟩, ⟨.str "ü >", 8⟩] ∧
      charsBetween " é  >\u00a0'ü >' " 5 8 = ['>', '\u00a0'] ∧
      tokenize (String.ofList (trimEnd (charsBetween " é  >\u00a0'ü >' " 5 8))) =
        .ok [⟨.gt, 0⟩] := by
  have h : tokenize " é  >\u00a0'ü >' " = .ok [⟨.ident "é", 1⟩, ⟨.gt, 5⟩, ⟨.str "ü >", 8⟩] := by
    cbv
  obtain ⟨-, -, -, hpiece⟩ := tokenize_tiles h
  have hgt := hpiece [⟨.ident "é", 1⟩] ⟨.gt, 5⟩ [⟨.str "ü >", 8⟩] rfl
  exact ⟨h, by cbv, hgt⟩

end GuardTree.Formula
