import GuardTree.Formula.Eval
import GuardTree.Proofs.Formula.CounterSafety
import GuardTree.Proofs.Formula.TokenTexts

/-! # Faults point into the expression

What is wrong with the text of an expression is reported for a place in it: the end, or a character
that is no white space. The lexer reports the start of the token that it cannot take off, and the
parser the start of the token at which it halts.
-/

namespace GuardTree.Formula

set_option autoImplicit false

open Text

/-- At byte `position` of a text that starts at byte `offset` stands a character that is no white
space. -/
def Marks (offset : Nat) (cs : List Char) (position : Nat) : Prop :=
  ∃ front c rest, cs = front ++ c :: rest ∧ position = offset + utf8Length front ∧
    isSpace c = false

variable {c : Char} {cs : List Char} {offset position : Nat} {ls ts : List Lexeme}

theorem marks_cons (hc : isSpace c = false) (offset : Nat) (cs : List Char) :
    Marks offset (c :: cs) offset :=
  ⟨[], c, cs, rfl, rfl, hc⟩

theorem Marks.append (front : List Char) (h : Marks (offset + utf8Length front) cs position) :
    Marks offset (front ++ cs) position := by
  obtain ⟨front', c, rest, rfl, rfl, hc⟩ := h
  refine ⟨front ++ front', c, rest, (List.append_assoc ..).symm, ?_, hc⟩
  rw [utf8Length_append, Nat.add_assoc]

/-! ## The lexer -/

theorem Marks.after_token {r : List Char} {t : Cut} (ht : cut c r = .ok t)
    (h : Marks (offset + c.utf8Size + utf8Length t.more) t.rest position) :
    Marks offset (c :: r) position := by
  rw [Nat.add_assoc, ← utf8Length_cons] at h
  rw [← cut_append ht]
  exact h.append (c :: t.more)

theorem marks_of_mem_lexemes (h : lexemes offset cs = .ok ls) :
    ∀ l ∈ ls, Marks offset cs l.offset := by
  fun_induction lexemes offset cs generalizing ls with
  | case1 =>
    cases h
    simp
  | case2 offset c r hc ih => exact fun l hl => (ih h l hl).append [c]
  | case3 => cases h
  | case4 offset c r hc t ht ih =>
    obtain ⟨others, ho, hls⟩ := bind_eq_ok_iff.1 h
    cases hls
    have hfirst : Marks offset (c :: r) offset := marks_cons (by simpa using hc) offset r
    exact List.forall_mem_cons.2 ⟨hfirst, fun l hl => (ih ho l hl).after_token ht⟩

theorem marks_of_lexemes_error {problem : Problem}
    (h : lexemes offset cs = .error (.malformed position problem)) :
    Marks offset cs position := by
  fun_induction lexemes offset cs with
  | case1 => cases h
  | case2 offset c r hc ih => exact (ih h).append [c]
  | case3 offset c r hc =>
    cases h
    exact marks_cons (by simpa using hc) position r
  | case4 offset c r hc t ht ih =>
    refine Marks.after_token ht (ih ?_)
    cases hr : lexemes (offset + c.utf8Size + utf8Length t.more) t.rest with
    | ok =>
      rw [hr] at h
      cases h
    | error fault =>
      rw [hr] at h
      exact h

/-! ## The parser -/

/-- The parser halts at one of the tokens or at their end. -/
theorem rest_suffix_of_parseTokens {halt : Halt} (h : parseTokens ts = .error halt) :
    halt.rest <:+ ts := by
  have hresult := result?_expression ts (Nat.le_refl _)
  rw [h] at hresult
  generalize (Counting.expression ts _ ⟨0, 0⟩).ending = ending at hresult
  cases ending with
  | halted c =>
    cases hresult
    exact List.drop_suffix c.position ts
  | returned => cases hresult
  | underflow => cases hresult
  | unfinished => cases hresult

theorem position_of_suffix {halt : Halt} (h : halt.rest <:+ ts) (stop : Nat) :
    halt.position stop = stop ∨ ∃ l ∈ ts, halt.position stop = l.offset := by
  rw [Halt.position]
  cases hr : halt.rest with
  | nil => exact .inl rfl
  | cons l rest =>
    rw [hr] at h
    exact .inr ⟨l, h.subset List.mem_cons_self, rfl⟩

/-! ## Whole expressions -/

variable {s : String} {fault : Fault}

theorem exists_position_of_parse (h : parse s = .error fault) : ∃ position problem,
    fault = .malformed position problem ∧
      (position = s.utf8ByteSize ∨ Marks 0 s.toList position) := by
  rw [parse] at h
  cases hts : tokenize s with
  | error fault' =>
    rw [hts] at h
    cases h
    obtain ⟨position, problem, rfl⟩ := exists_malformed_of_lexemes hts
    exact ⟨position, problem, rfl, .inr (marks_of_lexemes_error hts)⟩
  | ok ts =>
    rw [hts] at h
    dsimp only [bind, Except.bind] at h
    split at h
    case h_1 => cases h
    case h_2 halt hhalt =>
      cases h
      refine ⟨_, halt.problem, rfl, ?_⟩
      obtain hstop | ⟨l, hl, hposition⟩ :=
        position_of_suffix (rest_suffix_of_parseTokens hhalt) (utf8Length s.toList)
      · exact .inl (hstop.trans (utf8Length_toList s))
      · rw [hposition]
        exact .inr (marks_of_mem_lexemes hts l hl)

/-- **Faults point into the expression.** A text that cannot be read is malformed, its evaluation
fails with the whole text and the same fault, and the position of the fault is a place between
characters: the end of the text, or the start of a character that is no white space. -/
theorem parse_error_position (h : parse s = .error fault) : ∃ position problem,
    fault = .malformed position problem ∧
      evaluate s = .error ⟨s, .malformed position problem⟩ ∧
      (⟨position⟩ : String.Pos.Raw).IsValid s ∧
      (position = s.utf8ByteSize ∨ ∃ front c rest, s.toList = front ++ c :: rest ∧
        position = utf8Length front ∧ isSpace c = false) := by
  obtain ⟨position, problem, rfl, hposition⟩ := exists_position_of_parse h
  have heval : evaluate s = .error ⟨s, .malformed position problem⟩ := by
    rw [evaluate, h]
    rfl
  refine ⟨position, problem, rfl, heval, ?_⟩
  obtain rfl | ⟨front, c, rest, hs, hp, hc⟩ := hposition
  · have hs : s.toList = s.toList ++ [] := (List.append_nil _).symm
    exact ⟨isValid_of_toList hs (utf8Length_toList s).symm, .inl rfl⟩
  · rw [Nat.zero_add] at hp
    exact ⟨isValid_of_toList hs hp, .inr ⟨front, c, rest, hs, hp, hc⟩⟩

/-- The letters before the closing bracket have two bytes. -/
theorem parse_error_position_letters :
    parse "[é, (ü]" = .error (.malformed 8 .expectedParen) ∧
      evaluate "[é, (ü]" = .error ⟨"[é, (ü]", .malformed 8 .expectedParen⟩ ∧
      (⟨8⟩ : String.Pos.Raw).IsValid "[é, (ü]" := by
  have hts : tokenize "[é, (ü]" = .ok [⟨.lbracket, 0⟩, ⟨.ident "é", 1⟩, ⟨.comma, 3⟩,
      ⟨.lparen, 5⟩, ⟨.ident "ü", 6⟩, ⟨.rbracket, 8⟩] := by cbv
  have hhalt : parseTokens [⟨.lbracket, 0⟩, ⟨.ident "é", 1⟩, ⟨.comma, 3⟩, ⟨.lparen, 5⟩,
      ⟨.ident "ü", 6⟩, ⟨.rbracket, 8⟩] = .error ⟨[⟨.rbracket, 8⟩], .expectedParen⟩ :=
    Option.some.inj ((result?_expression _ (Nat.le_refl 70)).symm.trans rfl)
  have h : parse "[é, (ü]" = .error (.malformed 8 .expectedParen) := by
    rw [parse, hts]
    dsimp only [bind, Except.bind]
    rw [hhalt]
    rfl
  obtain ⟨position, problem, hfault, heval, hvalid, -⟩ := parse_error_position h
  cases hfault
  exact ⟨h, heval, hvalid⟩

end GuardTree.Formula
