import GuardTree.Proofs.Formula.Segments
import GuardTree.Proofs.Formula.Shape

/-! # The token at the front of a text

What the first character tells of the token that is taken off (`cut`): which characters it can have,
and whether it is a placeholder, an operand or a word among the operators. A text that denotes an
identifier or a number is taken off as that token (`Denotes.cut`).
-/

namespace GuardTree.Formula

set_option autoImplicit false

open Text

/-- The words among the operators. -/
def keywords : List String := ["and", "or", "not", "in"]

def Segment.IsKeyword : Segment → Prop
  | .token _ text => String.ofList text ∈ keywords
  | .space _ => False

variable {c : Char} {cs : List Char} {t : Cut}

/-! ## Its characters -/

/-- What a number may be made of besides digits. -/
def numberMarks : List Char := ['.', 'e', 'E', '+', '-']

theorem mem_numberTail {d : Char} {p : Bool} {previous : Char}
    (h : d ∈ (numberTail p previous cs).1) : d.isDigit = true ∨ d ∈ numberMarks := by
  induction cs generalizing p previous with
  | nil => cases h
  | cons c cs ih =>
    rw [numberTail] at h
    split at h
    case isFalse => cases h
    case isTrue hc =>
      obtain rfl | h := List.mem_cons.1 h
      · simp only [Bool.or_eq_true, Bool.and_eq_true, beq_iff_eq] at hc
        simp only [numberMarks, List.mem_cons]
        tauto
      · exact ih h

theorem cutNumber_more (h : cutNumber c cs = .ok t) : t.more = (numberTail true '0' cs).1 := by
  unfold cutNumber at h
  dsimp only at h
  split at h <;> cases h
  rfl

theorem cutDouble_more {token : Token} {second : Char} (h : cutDouble token second cs = .ok t) :
    t.more = [second] := by
  unfold cutDouble at h
  split at h
  case h_2 => cases h
  case h_1 =>
    split at h
    case isFalse => cases h
    case isTrue hd =>
      cases h
      rw [hd]

theorem cutPair_more {second : Char} {long short : Token} :
    (cutPair second long short cs).more = [second] ∨ (cutPair second long short cs).more = [] := by
  by_cases hr : cs.head? = some second
  · obtain ⟨cs, rfl⟩ := List.head?_eq_some_iff.1 hr
    simp [cutPair]
  · rw [cutPair_short hr]
    exact .inr rfl

/-- After its `$`, a placeholder is a name, with or without braces around it. -/
theorem cutVar_more (h : cutVar cs = .ok t) : ∃ name, name ≠ [] ∧
    (∀ d ∈ name, isNameChar d = true) ∧ t.token = .var (String.ofList name) ∧
    (t.more = '\x7b' :: (name ++ ['\x7d']) ∨
      t.more = name ∧ ∀ d ∈ t.rest.head?, isNameChar d = false) := by
  unfold cutVar at h
  split at h
  case h_1 cs =>
    split at h
    case isTrue => cases h
    case isFalse hn =>
      split at h <;> cases h
      exact ⟨nameOf cs, by simpa using hn, fun _ => isNameChar_of_mem_nameOf, rfl, .inl rfl⟩
  case h_2 =>
    split at h <;> cases h
    case isFalse hn =>
      exact ⟨nameOf cs, by simpa using hn, fun _ => isNameChar_of_mem_nameOf, rfl,
        .inr ⟨rfl, head?_afterName cs⟩⟩

theorem cut_not_mem (h : cut c cs = .ok t) (hv : c ≠ '$') (hq : ¬ (c = '"' ∨ c = '\x27')) :
    '$' ∉ t.more := by
  obtain ⟨f, hf, hcut⟩ := scans_cut c
  rw [hcut] at h
  cases hf with
  | symbol =>
    cases h
    exact List.not_mem_nil
  | double hs =>
    rw [cutDouble_more h, List.mem_singleton]
    exact Ne.symm hs
  | pair hs =>
    cases h
    obtain hm | hm := cutPair_more <;> rw [hm]
    · rw [List.mem_singleton]
      exact Ne.symm hs
    · exact List.not_mem_nil
  | quote hc => exact absurd hc hq
  | placeholder hc => exact absurd hc hv
  | number =>
    rw [cutNumber_more h]
    intro hm
    obtain hd | hd := mem_numberTail hm <;> exact absurd hd (by decide)
  | word =>
    cases h
    intro hm
    exact absurd (isNameChar_of_mem_nameOf hm) (by decide)
  | none => cases h

/-! ## Its kind -/

theorem ofWord_of_not_reserved {w : String} (h : w ∉ reserved) : Token.ofWord w = .ident w := by
  unfold Token.ofWord
  split
  case h_10 => rfl
  all_goals exact absurd (by decide) h

theorem ofWord_isOperand {w : String} (h : w ∉ keywords) : (Token.ofWord w).IsOperand := by
  unfold Token.ofWord
  split
  case h_1 | h_2 | h_3 | h_4 => exact absurd (by decide) h
  case h_5 | h_6 => exact ⟨_, .true⟩
  case h_7 | h_8 => exact ⟨_, .false⟩
  case h_9 => exact ⟨_, .none⟩
  case h_10 => exact ⟨_, .ident _⟩

theorem ofWord_ne_var (w name : String) : Token.ofWord w ≠ .var name := by
  unfold Token.ofWord
  split <;> simp

theorem cutNumber_token (h : cutNumber c cs = .ok t) :
    (∃ n, t.token = .int n) ∨ ∃ x, t.token = .float x := by
  unfold cutNumber numberToken? at h
  dsimp only at h
  split at h
  case h_2 => cases h
  case h_1 token ht =>
    cases h
    split at ht
    · split at ht
      · cases ht
        exact .inl ⟨_, rfl⟩
      · cases ht
    · obtain ⟨d, -, rfl⟩ := Option.map_eq_some_iff.1 ht
      exact .inr ⟨_, rfl⟩

/-- A token that starts with a name character is an operand or a keyword. -/
theorem isOperand_or_isKeyword (h : cut c cs = .ok t) (hc : isNameChar c = true) :
    t.token.IsOperand ∨ Segment.IsKeyword (.token t.token (c :: t.more)) := by
  rw [cut_of_not_mem_marks (not_mem_marks hc)] at h
  split at h
  case isTrue =>
    obtain ⟨n, hn⟩ | ⟨x, hx⟩ := cutNumber_token h
    · rw [hn]
      exact .inl ⟨_, .int n⟩
    · rw [hx]
      exact .inl ⟨_, .float x⟩
  case isFalse =>
    split at h
    case isFalse => cases h
    case isTrue =>
      cases h
      by_cases hk : String.ofList (c :: nameOf cs) ∈ keywords
      · exact .inr hk
      · exact .inl (ofWord_isOperand hk)

theorem cutDouble_token {token : Token} {second : Char} (h : cutDouble token second cs = .ok t) :
    t.token = token := by
  unfold cutDouble at h
  split at h
  case h_2 => cases h
  case h_1 =>
    split at h <;> cases h
    rfl

theorem cutPair_token {second : Char} {long short : Token} :
    (cutPair second long short cs).token = long ∨ (cutPair second long short cs).token = short := by
  unfold cutPair
  split
  · split
    · exact .inl rfl
    · exact .inr rfl
  · exact .inr rfl

theorem cutString_token {q : Char} (h : cutString q cs = .ok t) : ∃ s, t.token = .str s := by
  unfold cutString at h
  split at h <;> cases h
  exact ⟨_, rfl⟩

theorem cutVar_token (h : cutVar cs = .ok t) : ∃ name, t.token = .var name := by
  obtain ⟨name, -, -, ht, -⟩ := cutVar_more h
  exact ⟨_, ht⟩

theorem cut_token_ne_var (h : cut c cs = .ok t) (hv : c ≠ '$') (name : String) :
    t.token ≠ .var name := by
  obtain ⟨f, hf, hcut⟩ := scans_cut c
  rw [hcut] at h
  cases hf with
  | symbol ht =>
    cases h
    exact ht name
  | double _ ht =>
    rw [cutDouble_token h]
    exact ht name
  | pair _ _ hl ht =>
    cases h
    obtain hp | hp := cutPair_token <;> rw [hp]
    · exact hl name
    · exact ht name
  | quote =>
    obtain ⟨s, hs⟩ := cutString_token h
    simp [hs]
  | placeholder hc => exact absurd hc hv
  | number =>
    obtain ⟨n, hn⟩ | ⟨x, hx⟩ := cutNumber_token h
    · simp [hn]
    · simp [hx]
  | word =>
    cases h
    exact ofWord_ne_var _ _
  | none => cases h

/-! ## Words and numbers -/

theorem cut_word {c : Char} {cs y : List Char} (hd : ¬ c.isDigit = true)
    (hc : (isAlphabetic c || c == '_') = true) (hcs : ∀ d ∈ cs, isNameChar d = true)
    (hy : ∀ d ∈ y.head?, isNameChar d = false) :
    cut c (cs ++ y) = .ok ⟨.ofWord (String.ofList (c :: cs)), cs, y⟩ := by
  rw [cut_of_not_mem_marks (not_mem_marks (isNameChar_of_isLetter hc)), if_neg hd, if_pos hc,
    nameOf_append hcs hy, afterName_append hcs hy]

theorem cut_digits {c : Char} {cs y : List Char} (hd : ∀ d ∈ c :: cs, d.isDigit = true)
    (hle : Decimal.natOfDigits (c :: cs) ≤ maxInt)
    (hy : ∀ d ∈ y.head?, isNameChar d = false ∧ d ≠ '.') :
    cut c (cs ++ y) = .ok ⟨.int (Int64.ofNat (Decimal.natOfDigits (c :: cs))), cs, y⟩ := by
  have hc : c.isDigit = true := hd c List.mem_cons_self
  have htail : numberTail true '0' (cs ++ y) = (cs, y) :=
    numberTail_digits (fun d hm => hd d (List.mem_cons_of_mem _ hm)) (by decide) hy
  have htoken : numberToken? (c :: cs) =
      some (.int (Int64.ofNat (Decimal.natOfDigits (c :: cs)))) := by
    rw [numberToken?, if_pos (List.all_eq_true.2 hd), if_pos hle]
  rw [cut_of_not_mem_marks (not_mem_marks (isNameChar_of_isDigit hc)), if_pos hc]
  unfold cutNumber
  dsimp only
  rw [htail]
  dsimp only
  rw [htoken]

/-- A value is taken off as the token it denotes, unless what follows it goes on with it. -/
theorem Denotes.cut {v : String} {token : Token} {y : List Char} (h : Denotes v token)
    (hy : ∀ d ∈ y.head?, isNameChar d = false ∧ d ≠ '.') :
    ∃ c cs, v.toList = c :: cs ∧ isNameChar c = true ∧
      cut c (cs ++ y) = .ok ⟨token, cs, y⟩ := by
  cases h with
  | @word c cs hv hc hcs hr =>
    obtain ⟨hletter, hdigit⟩ : (isAlphabetic c || c == '_') = true ∧ ¬ c.isDigit = true := by
      obtain hc | rfl := hc
      · have hascii := isAscii_of_isAlphanum (c := c) (by simp [Char.isAlphanum, hc])
        exact ⟨by simp [isAlphabetic, hascii, hc], not_isDigit_of_isAlpha hc⟩
      · decide
    have hnames : ∀ d ∈ cs, isNameChar d = true := by
      intro d hd
      obtain hd | rfl := hcs d hd
      · exact isNameChar_of_isAlphanum hd
      · decide
    refine ⟨c, cs, hv, isNameChar_of_isLetter hletter, ?_⟩
    rw [cut_word hdigit hletter hnames fun d hd => (hy d hd).1, ← hv, String.ofList_toList,
      ofWord_of_not_reserved hr]
  | number hne hd hle =>
    obtain ⟨c, cs, hv⟩ := List.exists_cons_of_ne_nil fun hv => hne (String.toList_eq_nil_iff.1 hv)
    rw [hv] at hd hle ⊢
    have hc : c.isDigit = true := hd c List.mem_cons_self
    exact ⟨c, cs, rfl, isNameChar_of_isDigit hc, cut_digits hd hle hy⟩

end GuardTree.Formula
