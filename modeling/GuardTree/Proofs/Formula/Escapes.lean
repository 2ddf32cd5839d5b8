import GuardTree.Proofs.Formula.Literal

/-! # Every text has a literal

Any text can be written between either kind of quotes, with a backslash before each such quote and
before each backslash. Line feeds and tabs may be written as they are or by their escapes. The lexer
takes the literal off whole, whatever follows it (`cut_literal`), and reads the text back
(`tokenize_literal`).
-/

namespace GuardTree.Formula

set_option autoImplicit false

open Text

/-- Writes a backslash before a quote and before a backslash, and all else as it is. -/
def escapeQuote (quote c : Char) : List Char := if c = quote ∨ c = '\\' then ['\\', c] else [c]

/-- As `escapeQuote`, with the escapes of line feeds and tabs. -/
def escapeLayout (quote c : Char) : List Char :=
  match c with
  | '\n' => ['\\', 'n']
  | '\t' => ['\\', 't']
  | c => escapeQuote quote c

/-- A text between quotes, each character as `write` has it. -/
def literal (quote : Char) (write : Char → List Char) (s : String) : String :=
  String.ofList (quote :: (s.toList.flatMap write ++ [quote]))

variable {quote : Char}

theorem ne_backslash_of_quote (hq : quote = '"' ∨ quote = '\x27') : quote ≠ '\\' := by
  obtain rfl | rfl := hq <;> decide

theorem stands_escapeQuote (hq : quote = '"' ∨ quote = '\x27') (c : Char) :
    Stands quote c (escapeQuote quote c) := by
  unfold escapeQuote
  split
  case isTrue h =>
    refine .escaped ?_ ?_
    all_goals
      rintro rfl
      obtain rfl | rfl := hq <;> exact absurd h (by decide)
  case isFalse h =>
    obtain ⟨hc, hb⟩ := not_or.1 h
    exact .plain hc hb

theorem stands_escapeLayout (hq : quote = '"' ∨ quote = '\x27') (c : Char) :
    Stands quote c (escapeLayout quote c) := by
  unfold escapeLayout
  split
  · exact .lineFeed
  · exact .tab
  · exact stands_escapeQuote hq _

/-- A literal is taken off up to its closing quote and is the text that its characters stand for. -/
theorem cut_literal (hq : quote = '"' ∨ quote = '\x27') {write : Char → List Char}
    (hw : ∀ c, Stands quote c (write c)) (s : String) (rest : List Char) :
    cut quote (s.toList.flatMap write ++ quote :: rest) =
      .ok ⟨.str s, s.toList.flatMap write ++ [quote], rest⟩ := by
  have hstands : List.Forall₂ (Stands quote) s.toList (s.toList.map write) :=
    List.forall₂_map_right_iff.2 (List.forall₂_same.2 fun c _ => hw c)
  have hbody := stringBody_of_stands (ne_backslash_of_quote hq) hstands rest
  rw [← List.flatMap_def] at hbody
  have hcut : cut quote = cutString quote := by
    obtain rfl | rfl := hq <;> rfl
  rw [hcut, cutString, hbody]
  dsimp only
  rw [String.ofList_toList]

theorem tokenize_of_stands (hq : quote = '"' ∨ quote = '\x27') {write : Char → List Char}
    (hw : ∀ c, Stands quote c (write c)) (s : String) :
    tokenize (literal quote write s) = .ok [⟨.str s, 0⟩] := by
  have hspace : isSpace quote = false := by obtain rfl | rfl := hq <;> rfl
  rw [tokenize, literal, String.toList_ofList, lexemes_of_cut hspace (cut_literal hq hw s []),
    lexemes]
  rfl

/-- **Every text has a literal.** Between quotes of either kind, with a backslash before each such
quote and each backslash, it is one token, which denotes the text; and so it is with line feeds and
tabs written as `\n` and `\t`. -/
theorem tokenize_literal (hq : quote = '"' ∨ quote = '\x27') (s : String) :
    tokenize (literal quote (escapeQuote quote) s) = .ok [⟨.str s, 0⟩] ∧
      tokenize (literal quote (escapeLayout quote) s) = .ok [⟨.str s, 0⟩] :=
  ⟨tokenize_of_stands hq (stands_escapeQuote hq) s,
    tokenize_of_stands hq (stands_escapeLayout hq) s⟩

theorem tokenize_literal_backslashes :
    literal '\x27' (escapeQuote '\x27') "\\\\n\n'\"\\" = "'\\\\\\\\n\n\\'\"\\\\'" ∧
      tokenize "'\\\\\\\\n\n\\'\"\\\\'" = .ok [⟨.str "\\\\n\n'\"\\", 0⟩] ∧
      tokenize "'\\\\\\\\n\\n\\'\"\\\\'" = .ok [⟨.str "\\\\n\n'\"\\", 0⟩] :=
  ⟨by decide, tokenize_literal (.inr rfl) "\\\\n\n'\"\\"⟩

end GuardTree.Formula
