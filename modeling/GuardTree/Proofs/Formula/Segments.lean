import GuardTree.Formula.Lexer
import Mathlib

/-! # Texts cut into segments

`Cuts cs segs`: the lexer takes the text `cs` apart into the segments `segs`, each a space or a
token with its characters. What takes a token off is decided by its first character (`scans_cut`),
and where the token ends by the character after it (`cut_congr`). Texts that end where a token ends
can be put one after the other (`Spells.append`).
-/

namespace GuardTree.Formula

set_option autoImplicit false

open Text

/-- A space or a token, with its characters. -/
inductive Segment
  | space (c : Char)
  | token (t : Token) (text : List Char)

def Segment.token? : Segment → Option Token
  | .space _ => none
  | .token t _ => some t

def tokensOf (segs : List Segment) : List Token := segs.filterMap Segment.token?

inductive Cuts : List Char → List Segment → Prop
  | nil : Cuts [] []
  | space {c : Char} {r : List Char} {segs : List Segment} (hc : isSpace c = true)
      (h : Cuts r segs) : Cuts (c :: r) (.space c :: segs)
  | token {c : Char} {r : List Char} {t : Cut} {segs : List Segment} (hc : isSpace c = false)
      (ht : cut c r = .ok t) (h : Cuts t.rest segs) :
      Cuts (c :: r) (.token t.token (c :: t.more) :: segs)

section

variable {c : Char} {r : List Char} {t : Cut}

theorem lexemes_of_isSpace (hc : isSpace c = true) (offset : Nat) :
    lexemes offset (c :: r) = lexemes (offset + c.utf8Size) r := by
  rw [lexemes, if_pos hc]

theorem lexemes_of_cut (hc : isSpace c = false) (ht : cut c r = .ok t) (offset : Nat) :
    lexemes offset (c :: r) =
      (lexemes (offset + c.utf8Size + utf8Length t.more) t.rest).map (⟨t.token, offset⟩ :: ·) := by
  rw [lexemes, if_neg (by simp [hc])]
  split
  case h_1 h' =>
    rw [ht] at h'
    cases h'
  case h_2 h' =>
    rw [ht] at h'
    cases h'
    cases lexemes (offset + c.utf8Size + utf8Length t.more) t.rest <;> rfl

theorem lexemes_of_error {problem : Problem} (hc : isSpace c = false)
    (ht : cut c r = .error problem) (offset : Nat) :
    lexemes offset (c :: r) = .error (.malformed offset problem) := by
  rw [lexemes, if_neg (by simp [hc])]
  split
  case h_1 h' =>
    rw [ht] at h'
    cases h'
    rfl
  case h_2 h' =>
    rw [ht] at h'
    cases h'

end

theorem Cuts.lexemes {cs : List Char} {segs : List Segment} (h : Cuts cs segs) (offset : Nat) :
    ∃ ls, lexemes offset cs = .ok ls ∧ ls.map Lexeme.token = tokensOf segs := by
  induction h generalizing offset with
  | nil => exact ⟨[], by rw [Formula.lexemes], rfl⟩
  | @space c r segs hc _ ih =>
    obtain ⟨ls, hl, hts⟩ := ih (offset + c.utf8Size)
    exact ⟨ls, by rw [lexemes_of_isSpace hc, hl], hts⟩
  | @token c r t segs hc ht _ ih =>
    obtain ⟨ls, hl, hts⟩ := ih (offset + c.utf8Size + utf8Length t.more)
    refine ⟨⟨t.token, offset⟩ :: ls, ?_, ?_⟩
    · rw [lexemes_of_cut hc ht, hl]
      rfl
    · rw [List.map_cons, hts]
      rfl

/-- In front of `r`, the text `cs` is cut into the tokens. -/
def SpellsBefore (r cs : List Char) (ts : List Token) : Prop :=
  ∀ segs, Cuts r segs → ∃ segs', Cuts (cs ++ r) segs' ∧ tokensOf segs' = ts ++ tokensOf segs

theorem SpellsBefore.append {r cs cs' : List Char} {ts ts' : List Token}
    (h : SpellsBefore (cs' ++ r) cs ts) (h' : SpellsBefore r cs' ts') :
    SpellsBefore r (cs ++ cs') (ts ++ ts') := by
  intro segs hr
  obtain ⟨segs₁, hcuts₁, hts₁⟩ := h' segs hr
  obtain ⟨segs₂, hcuts₂, hts₂⟩ := h segs₁ hcuts₁
  refine ⟨segs₂, ?_, ?_⟩
  · rwa [List.append_assoc]
  · rw [hts₂, hts₁, List.append_assoc]

/-- The text is cut into the tokens, whatever text comes after it. -/
def Spells (cs : List Char) (ts : List Token) : Prop :=
  ∀ r segs, Cuts r segs → ∃ segs', Cuts (cs ++ r) segs' ∧ tokensOf segs' = ts ++ tokensOf segs

theorem Spells.append {cs cs' : List Char} {ts ts' : List Token} (h : Spells cs ts)
    (h' : Spells cs' ts') : Spells (cs ++ cs') (ts ++ ts') :=
  fun r => SpellsBefore.append (h (cs' ++ r)) (h' r)

theorem spells_of_cut {c : Char} {more : List Char} {t : Token} (hc : isSpace c = false)
    (ht : ∀ r, cut c (more ++ r) = .ok ⟨t, more, r⟩) : Spells (c :: more) [t] :=
  fun r _ hr => ⟨_, .token (t := ⟨t, more, r⟩) hc (ht r) hr, rfl⟩

/-! ## Characters -/

theorem isAscii_of_isAlphanum {c : Char} (h : c.isAlphanum = true) : isAscii c = true := by
  simp only [Char.isAlphanum, Char.isAlpha, Char.isUpper, Char.isLower, Char.isDigit,
    Bool.or_eq_true, Bool.and_eq_true, decide_eq_true_eq] at h
  have hle : c.val ≤ 122 := by
    obtain ((⟨-, h⟩ | ⟨-, h⟩) | ⟨-, h⟩) := h <;> exact UInt32.le_trans h (by decide)
  have hn : c.toNat ≤ 122 := hle
  exact decide_eq_true (by omega)

theorem not_isDigit_of_isAlpha {c : Char} (h : c.isAlpha = true) : ¬ c.isDigit = true := by
  simp only [Char.isAlpha, Char.isUpper, Char.isLower, Bool.or_eq_true, Bool.and_eq_true,
    decide_eq_true_eq, ge_iff_le] at h
  have hle : 65 ≤ c.toNat := by
    obtain ⟨h, -⟩ | ⟨h, -⟩ := h
    · exact h
    · exact Nat.le_trans (by decide) (show 97 ≤ c.toNat from h)
  intro hd
  simp only [Char.isDigit, Bool.and_eq_true, decide_eq_true_eq] at hd
  have hn : c.toNat ≤ 57 := hd.2
  omega

theorem isNameChar_of_isAlphanum {c : Char} (h : c.isAlphanum = true) : isNameChar c = true := by
  rw [isNameChar_ascii (isAscii_of_isAlphanum h), h]
  rfl

theorem isNameChar_of_isDigit {c : Char} (h : c.isDigit = true) : isNameChar c = true :=
  isNameChar_of_isAlphanum (by simp [Char.isAlphanum, h])

theorem not_isDigit_of_not_isNameChar {c : Char} (h : isNameChar c = false) :
    c.isDigit = false := by
  by_contra hd
  rw [isNameChar_of_isDigit (by simpa using hd)] at h
  cases h

theorem isNameChar_of_isAlphabetic {c : Char} (h : isAlphabetic c = true) :
    isNameChar c = true := by
  unfold isAlphabetic at h
  unfold isNameChar isAlphanumeric
  split at h
  case isTrue ha =>
    rw [if_pos ha, Char.isAlphanum, h]
    rfl
  case isFalse ha =>
    rw [if_neg ha, h]
    rfl

theorem isNameChar_of_isLetter {c : Char} (h : (isAlphabetic c || c == '_') = true) :
    isNameChar c = true := by
  obtain h | h := Bool.or_eq_true_iff.1 h
  · exact isNameChar_of_isAlphabetic h
  · rw [eq_of_beq h]
    decide

theorem not_isNameChar_of_isSpace {c : Char} (h : isSpace c = true) : isNameChar c = false := by
  by_cases ha : isAscii c = true
  · have hall : ∀ n : Nat, n < 128 → isSpace (Char.ofNat n) = true →
        isNameChar (Char.ofNat n) = false := by
      decide +kernel
    have hn : c.toNat < 128 := of_decide_eq_true ha
    have hc := hall c.toNat hn
    rw [Char.ofNat_toNat] at hc
    exact hc h
  · have halphabetic : within Property.alphabetic c = false :=
      not_within_of_apart (by decide +kernel) h
    have hnumeric : within Property.numeric c = false :=
      not_within_of_apart (by decide +kernel) h
    have hline : (c == '_') = false := by
      rw [beq_eq_false_iff_ne]
      rintro rfl
      exact ha rfl
    simp [isNameChar, isAlphanumeric, ha, halphabetic, hnumeric, hline]

theorem not_isSpace_of_isNameChar {c : Char} (h : isNameChar c = true) : isSpace c = false := by
  by_contra hspace
  rw [not_isNameChar_of_isSpace (by simpa using hspace)] at h
  cases h

/-! ## What takes a token off -/

/-- The characters that start a token of their own. -/
def marks : List Char :=
  ['(', ')', '[', ']', ',', '+', '-', '*', '/', '%', '=', '!', '<', '>', '&', '|', '"', '\x27', '$']

/-- `Scans c f`: what starts with `c` is taken off by `f`. -/
inductive Scans (c : Char) : (List Char → Except Problem Cut) → Prop
  | symbol {t : Token} (ht : ∀ name, t ≠ .var name) : Scans c fun r => .ok ⟨t, [], r⟩
  | double {t : Token} {second : Char} (hs : second ≠ '$') (ht : ∀ name, t ≠ .var name)
      (hspace : isSpace second = false) : Scans c (cutDouble t second)
  | pair {long short : Token} {second : Char} (hs : second ≠ '$') (hn : isNameChar second = false)
      (hl : ∀ name, long ≠ .var name) (ht : ∀ name, short ≠ .var name)
      (hspace : isSpace second = false) : Scans c fun r => .ok (cutPair second long short r)
  | quote (hq : c = '"' ∨ c = '\x27') : Scans c (cutString c)
  | placeholder (hc : c = '$') : Scans c cutVar
  | number (hd : c.isDigit = true) : Scans c (cutNumber c)
  | word (hd : ¬ c.isDigit = true) (ha : (isAlphabetic c || c == '_') = true) :
      Scans c fun r =>
        .ok ⟨.ofWord (String.ofList (c :: nameOf r)), nameOf r, afterName r⟩
  | none : Scans c fun _ => .error (.unexpectedChar c)

theorem cut_of_not_mem_marks {c : Char} (hc : c ∉ marks) (r : List Char) :
    cut c r = if c.isDigit then cutNumber c r
      else if isAlphabetic c || c == '_' then
        .ok ⟨.ofWord (String.ofList (c :: nameOf r)), nameOf r, afterName r⟩
      else .error (.unexpectedChar c) := by
  unfold cut
  split
  case h_20 => rfl
  all_goals exact absurd (by decide) hc

theorem scans_cut (c : Char) : ∃ f, Scans c f ∧ cut c = f := by
  by_cases hc : c ∈ marks
  · simp only [marks, List.mem_cons, List.not_mem_nil, or_false] at hc
    obtain rfl | rfl | rfl | rfl | rfl | rfl | rfl | rfl | rfl | rfl | rfl | rfl | rfl | rfl | rfl |
      rfl | rfl | rfl | rfl := hc
    all_goals first
      | exact ⟨_, .symbol (by simp), rfl⟩
      | exact ⟨_, .double (by decide) (by simp) rfl, rfl⟩
      | exact ⟨_, .pair (by decide) (by decide) (by simp) (by simp) rfl, rfl⟩
      | exact ⟨_, .quote (by decide), rfl⟩
      | exact ⟨_, .placeholder rfl, rfl⟩
  · have hcut := funext (cut_of_not_mem_marks hc)
    by_cases hd : c.isDigit = true
    · exact ⟨_, .number hd, by simpa only [if_pos hd] using hcut⟩
    · by_cases ha : (isAlphabetic c || c == '_') = true
      · exact ⟨_, .word hd ha, by simpa only [if_neg hd, if_pos ha] using hcut⟩
      · exact ⟨_, .none, by simpa only [if_neg hd, if_neg ha] using hcut⟩

theorem not_mem_marks {c : Char} (hc : isNameChar c = true) : c ∉ marks := by
  intro hm
  have hall : marks.all (fun c => !isNameChar c) = true := rfl
  have hn := List.all_eq_true.1 hall c hm
  rw [hc] at hn
  cases hn

/-! ## The character after a token -/

theorem isNameChar_of_mem_nameOf {cs : List Char} {c : Char} (h : c ∈ nameOf cs) :
    isNameChar c = true :=
  (List.all_eq_true.1 List.all_takeWhile) c h

theorem head?_afterName (cs : List Char) : ∀ d ∈ (afterName cs).head?, isNameChar d = false := by
  have h := List.head?_dropWhile_not isNameChar cs
  intro d hd
  rw [afterName] at hd
  rwa [hd] at h

theorem nameOf_append {name rest : List Char} (hname : ∀ c ∈ name, isNameChar c = true)
    (hrest : ∀ d ∈ rest.head?, isNameChar d = false) : nameOf (name ++ rest) = name := by
  unfold nameOf
  rw [List.takeWhile_append_of_pos hname]
  cases rest with
  | nil => simp
  | cons d rest => simp [hrest d rfl]

theorem afterName_append {name rest : List Char} (hname : ∀ c ∈ name, isNameChar c = true)
    (hrest : ∀ d ∈ rest.head?, isNameChar d = false) : afterName (name ++ rest) = rest := by
  unfold afterName
  rw [List.dropWhile_append_of_pos hname]
  cases rest with
  | nil => rfl
  | cons d rest => simp [hrest d rfl]

/-- A number that ends before `r` ends before `y`. -/
def NumberEndsLike (r y : List Char) : Prop :=
  ∀ p previous, numberTail p previous r = ([], r) → numberTail p previous y = ([], y)

theorem numberEndsLike_of_head?_eq {r y : List Char} (h : y.head? = r.head?) :
    NumberEndsLike r y := by
  intro p previous hr
  cases y with
  | nil => rfl
  | cons d y =>
    obtain ⟨r, rfl⟩ := List.head?_eq_some_iff.1 h.symm
    rw [numberTail] at hr ⊢
    split at hr
    case isTrue => cases hr
    case isFalse hd => rw [if_neg hd]

theorem numberTail_congr {r y : List Char} {p : Bool} {previous : Char}
    (hy : NumberEndsLike (numberTail p previous r).2 y) :
    numberTail p previous ((numberTail p previous r).1 ++ y) =
      ((numberTail p previous r).1, y) := by
  induction r generalizing p previous with
  | nil => exact hy p previous rfl
  | cons c r ih =>
    rw [numberTail] at hy ⊢
    split at hy
    case isTrue hc =>
      rw [if_pos hc]
      dsimp only at hy ⊢
      rw [List.cons_append, numberTail, if_pos hc]
      dsimp only
      rw [ih hy]
    case isFalse hc =>
      rw [if_neg hc]
      exact hy p previous (by rw [numberTail, if_neg hc])

/-- Digits before something that neither is of a name nor is a point are a number. -/
theorem numberTail_digits {ds y : List Char} {previous : Char}
    (hds : ∀ c ∈ ds, c.isDigit = true) (hp : previous ≠ 'e' ∧ previous ≠ 'E')
    (hy : ∀ d ∈ y.head?, isNameChar d = false ∧ d ≠ '.') :
    numberTail true previous (ds ++ y) = (ds, y) := by
  induction ds generalizing previous with
  | nil =>
    cases y with
    | nil => rfl
    | cons d y =>
      obtain ⟨hname, hpoint⟩ := hy d rfl
      have hdigit := not_isDigit_of_not_isNameChar hname
      have he : d ≠ 'e' := by
        rintro rfl
        exact absurd hname (by decide)
      have hE : d ≠ 'E' := by
        rintro rfl
        exact absurd hname (by decide)
      rw [List.nil_append, numberTail, if_neg (by simp [hdigit, hpoint, he, hE, hp.1, hp.2])]
  | cons c ds ih =>
    have hc : c.isDigit = true := hds c List.mem_cons_self
    have hpoint : c ≠ '.' := by rintro rfl; exact absurd hc (by decide)
    have he : c ≠ 'e' := by rintro rfl; exact absurd hc (by decide)
    have hE : c ≠ 'E' := by rintro rfl; exact absurd hc (by decide)
    rw [List.cons_append, numberTail, if_pos (by simp [hc])]
    have hstays : (true && !(c == '.' || c == 'e' || c == 'E')) = true := by
      simp [hpoint, he, hE]
    dsimp only
    rw [hstays, ih (fun d hd => hds d (List.mem_cons_of_mem _ hd)) ⟨he, hE⟩]

/-- `y` goes on like `r`, or has a name where `r` has a placeholder. -/
def GoesOnLike (r y : List Char) : Prop :=
  y.head? = r.head? ∨ r.head? = some '$' ∧ ∃ d ∈ y.head?, isNameChar d = true

theorem GoesOnLike.head?_ne {r y : List Char} (h : GoesOnLike r y) {c : Char}
    (hc : isNameChar c = false) (hr : r.head? ≠ some c) : y.head? ≠ some c := by
  obtain h | ⟨-, d, hd, hname⟩ := h
  · rwa [h]
  · intro hy
    rw [hy] at hd
    cases hd
    rw [hc] at hname
    cases hname

theorem GoesOnLike.head?_eq {r y : List Char} (h : GoesOnLike r y) (hr : r.head? ≠ some '$') :
    y.head? = r.head? := by
  obtain h | ⟨hr', -⟩ := h
  · exact h
  · exact absurd hr' hr

theorem cutPair_short {second : Char} {long short : Token} {r : List Char}
    (h : r.head? ≠ some second) : cutPair second long short r = ⟨short, [], r⟩ := by
  cases r with
  | nil => rfl
  | cons d r => exact if_neg (by simpa using h)

theorem cutPair_congr {second : Char} {long short : Token} {r y : List Char}
    (hy : r.head? ≠ some second → y.head? ≠ some second) :
    cutPair second long short ((cutPair second long short r).more ++ y) =
      ⟨(cutPair second long short r).token, (cutPair second long short r).more, y⟩ := by
  by_cases hr : r.head? = some second
  · obtain ⟨r, rfl⟩ := List.head?_eq_some_iff.1 hr
    simp [cutPair]
  · rw [cutPair_short hr]
    exact cutPair_short (hy hr)

theorem cutDouble_congr {token : Token} {second : Char} {r y : List Char} {t : Cut}
    (h : cutDouble token second r = .ok t) :
    cutDouble token second (t.more ++ y) = .ok ⟨t.token, t.more, y⟩ := by
  unfold cutDouble at h
  split at h
  case h_2 => cases h
  case h_1 =>
    split at h
    case isFalse => cases h
    case isTrue hd =>
      cases h
      simp [cutDouble, hd]

theorem cutNumber_congr {c : Char} {r y : List Char} {t : Cut} (h : cutNumber c r = .ok t)
    (hy : NumberEndsLike t.rest y) : cutNumber c (t.more ++ y) = .ok ⟨t.token, t.more, y⟩ := by
  unfold cutNumber at h ⊢
  dsimp only at h ⊢
  split at h
  case h_2 => cases h
  case h_1 token ht =>
    cases h
    rw [numberTail_congr hy]
    dsimp only
    rw [ht]

/-- A token that is neither a placeholder nor a literal of text is taken off other texts, too, if
they go on like the one it was taken off. -/
theorem cut_congr {c : Char} {r y : List Char} {t : Cut} (h : cut c r = .ok t) (hv : c ≠ '$')
    (hq : ¬ (c = '"' ∨ c = '\x27')) (hy : GoesOnLike t.rest y)
    (hw : isNameChar c = true → t.rest.head? ≠ some '$') :
    cut c (t.more ++ y) = .ok ⟨t.token, t.more, y⟩ := by
  obtain ⟨f, hf, hcut⟩ := scans_cut c
  rw [hcut] at h ⊢
  cases hf with
  | symbol =>
    cases h
    rfl
  | double => exact cutDouble_congr h
  | pair _ hn =>
    cases h
    refine congrArg _ (cutPair_congr fun hr => ?_)
    rw [cutPair_short hr] at hy
    exact hy.head?_ne hn hr
  | quote hc => exact absurd hc hq
  | placeholder hc => exact absurd hc hv
  | number hd =>
    have hhead := hy.head?_eq (hw (isNameChar_of_isDigit hd))
    exact cutNumber_congr h (numberEndsLike_of_head?_eq hhead)
  | word hd ha =>
    cases h
    have hrest : ∀ d ∈ y.head?, isNameChar d = false := by
      rw [hy.head?_eq (hw (isNameChar_of_isLetter ha))]
      exact head?_afterName r
    dsimp only
    rw [nameOf_append (fun _ => isNameChar_of_mem_nameOf) hrest,
      afterName_append (fun _ => isNameChar_of_mem_nameOf) hrest]
  | none => cases h

end GuardTree.Formula
