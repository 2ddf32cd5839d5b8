import GuardTree.Proofs.Formula.FrontToken
import GuardTree.Proofs.Formula.Literal
import GuardTree.Proofs.Formula.Reading

/-! # White space ends tokens

No token goes on past white space, and none ends with it: what is taken off the front of a text is
also taken off where the text is over, or goes on with white space, right after it
(`endsAtSpace_cut`). So the tokens of two texts with white space between them are those of the first
and then those of the second, and what is wrong with the second is wrong with the whole
(`tokenize_append_eq_shift`).
-/

namespace GuardTree.Formula

set_option autoImplicit false

open Text

variable {c : Char} {cs r w y : List Char} {t : Cut} {offset : Nat} {ls : List Lexeme}

/-- The text is over or goes on with white space. -/
def Breaks (y : List Char) : Prop := ∀ d ∈ y.head?, isSpace d = true

theorem breaks_nil : Breaks [] := by simp [Breaks]

theorem breaks_append (hne : w ≠ []) (hw : ∀ c ∈ w, isSpace c = true) (y : List Char) :
    Breaks (w ++ y) := by
  obtain ⟨c, w, rfl⟩ := List.exists_cons_of_ne_nil hne
  rintro d ⟨⟩
  exact hw _ List.mem_cons_self

theorem Breaks.head?_ne (hy : Breaks y) (hc : isSpace c = false) : y.head? ≠ some c := by
  intro h
  rw [hy c h] at hc
  cases hc

theorem Breaks.not_isNameChar (hy : Breaks y) : ∀ d ∈ y.head?, isNameChar d = false :=
  fun d hd => not_isNameChar_of_isSpace (hy d hd)

/-- After a token, `y` is like `rest`: it starts with the same character, or breaks off. -/
def Follows (rest y : List Char) : Prop := y.head? = rest.head? ∨ Breaks y

theorem Breaks.follows (hy : Breaks y) (rest : List Char) : Follows rest (rest ++ y) := by
  cases rest with
  | nil => exact .inr hy
  | cons => exact .inl rfl

theorem Follows.head?_ne (hy : Follows r y) (hc : isSpace c = false) (hr : r.head? ≠ some c) :
    y.head? ≠ some c := by
  obtain hy | hy := hy
  · rwa [hy]
  · exact hy.head?_ne hc

theorem Follows.not_isNameChar (hy : Follows r y) (hr : ∀ d ∈ r.head?, isNameChar d = false) :
    ∀ d ∈ y.head?, isNameChar d = false := by
  obtain hy | hy := hy
  · rwa [hy]
  · exact hy.not_isNameChar

/-! ## The scanners -/

theorem not_isSpace_of_mem_nameOf (h : c ∈ nameOf cs) : isSpace c = false :=
  not_isSpace_of_isNameChar (isNameChar_of_mem_nameOf h)

theorem not_isSpace_of_mem_numberTail {p : Bool} {previous : Char}
    (h : c ∈ (numberTail p previous cs).1) : isSpace c = false := by
  have hmarks : numberMarks.all (fun d => !isSpace d) = true := rfl
  obtain hd | hm := mem_numberTail h
  · exact not_isSpace_of_isNameChar (isNameChar_of_isDigit hd)
  · simpa using List.all_eq_true.1 hmarks c hm

theorem numberTail_of_breaks (hy : Breaks y) (p : Bool) (previous : Char) :
    numberTail p previous y = ([], y) := by
  cases y with
  | nil => rfl
  | cons d y =>
    have hne : ∀ e, isSpace e = false → d ≠ e := fun e he heq => hy.head?_ne he (heq ▸ rfl)
    have hdigit := not_isDigit_of_not_isNameChar (hy.not_isNameChar d rfl)
    rw [numberTail, if_neg]
    simp [hdigit, hne '.' rfl, hne 'e' rfl, hne 'E' rfl, hne '+' rfl, hne '-' rfl]

theorem Follows.numberEndsLike (hy : Follows r y) : NumberEndsLike r y := by
  obtain hy | hy := hy
  · exact numberEndsLike_of_head?_eq hy
  · exact fun p previous _ => numberTail_of_breaks hy p previous

/-- White space ends what `f` takes off a text: it takes nothing that ends with white space, and
takes the same off where the text breaks off after it. -/
structure EndsAtSpace (f : List Char → Except Problem Cut) : Prop where
  solid : ∀ {r : List Char} {t : Cut}, f r = .ok t → ∀ d ∈ t.more.getLast?, isSpace d = false
  stops : ∀ {r y : List Char} {t : Cut}, f r = .ok t → Follows t.rest y →
    f (t.more ++ y) = .ok ⟨t.token, t.more, y⟩

theorem endsAtSpace_symbol (t : Token) : EndsAtSpace fun r => .ok ⟨t, [], r⟩ where
  solid h := by
    cases h
    simp
  stops h _ := by
    cases h
    rfl

theorem endsAtSpace_double {second : Char} (hs : isSpace second = false) (t : Token) :
    EndsAtSpace (cutDouble t second) where
  solid h := by
    rw [cutDouble_more h]
    simpa using hs
  stops h _ := cutDouble_congr h

theorem endsAtSpace_pair {second : Char} (hs : isSpace second = false) (long short : Token) :
    EndsAtSpace fun r => .ok (cutPair second long short r) where
  solid h := by
    cases h
    obtain hm | hm := cutPair_more <;> rw [hm]
    · simpa using hs
    · simp
  stops h hy := by
    cases h
    refine congrArg _ (cutPair_congr fun hr => ?_)
    rw [cutPair_short hr] at hy
    exact hy.head?_ne hs hr

theorem endsAtSpace_string {quote : Char} (hq : isSpace quote = false) :
    EndsAtSpace (cutString quote) where
  solid h := by
    unfold cutString at h
    split at h <;> cases h
    case h_1 hs =>
      obtain ⟨body, hbody⟩ := exists_append_of_closes (closes_of_stringBody hs)
      simpa [hbody] using hq
  stops h _ := by
    unfold cutString at h
    split at h <;> cases h
    case h_1 hs _ => rw [cutString, stringBody_congr hs]

theorem endsAtSpace_number (c : Char) : EndsAtSpace (cutNumber c) where
  solid h d hd := by
    rw [cutNumber_more h] at hd
    exact not_isSpace_of_mem_numberTail (List.mem_of_getLast? hd)
  stops h hy := cutNumber_congr h hy.numberEndsLike

theorem endsAtSpace_word (c : Char) : EndsAtSpace fun r =>
    .ok ⟨.ofWord (String.ofList (c :: nameOf r)), nameOf r, afterName r⟩ where
  solid h d hd := by
    cases h
    exact not_isSpace_of_mem_nameOf (List.mem_of_getLast? hd)
  stops {r y t} h hy := by
    cases h
    have hend := hy.not_isNameChar (head?_afterName r)
    dsimp only
    rw [nameOf_append (fun _ => isNameChar_of_mem_nameOf) hend,
      afterName_append (fun _ => isNameChar_of_mem_nameOf) hend]

theorem cutVar_bare {name : List Char} (hne : name ≠ []) (hname : ∀ d ∈ name, isNameChar d = true)
    (hy : ∀ d ∈ y.head?, isNameChar d = false) :
    cutVar (name ++ y) = .ok ⟨.var (String.ofList name), name, y⟩ := by
  obtain ⟨d, rest, rfl⟩ := List.exists_cons_of_ne_nil hne
  have hd : d ≠ '\x7b' := by
    rintro rfl
    exact absurd (hname _ List.mem_cons_self) (by decide)
  have hnameOf := nameOf_append hname hy
  have hafter := afterName_append hname hy
  unfold cutVar
  split
  · simp_all
  · rw [hnameOf, hafter, if_neg (by simp)]

theorem cutVar_braced {name : List Char} (hne : name ≠ [])
    (hname : ∀ d ∈ name, isNameChar d = true) (y : List Char) :
    cutVar ('\x7b' :: (name ++ '\x7d' :: y)) =
      .ok ⟨.var (String.ofList name), '\x7b' :: (name ++ ['\x7d']), y⟩ := by
  have hclose : ∀ d ∈ ('\x7d' :: y).head?, isNameChar d = false := by
    rintro d ⟨⟩
    decide
  simp [cutVar, nameOf_append hname hclose, afterName_append hname hclose, hne]

theorem endsAtSpace_var : EndsAtSpace cutVar where
  solid h d hd := by
    obtain ⟨name, -, hname, -, hm | ⟨hm, -⟩⟩ := cutVar_more h
    · rw [hm, ← List.cons_append, List.getLast?_append_of_ne_nil _ (List.cons_ne_nil _ _)] at hd
      cases hd
      rfl
    · rw [hm] at hd
      exact not_isSpace_of_isNameChar (hname d (List.mem_of_getLast? hd))
  stops h hy := by
    obtain ⟨name, hne, hname, ht, hm | ⟨hm, hrest⟩⟩ := cutVar_more h
    · rw [hm, ht, List.cons_append, List.append_assoc, List.singleton_append,
        cutVar_braced hne hname]
    · rw [hm, ht, cutVar_bare hne hname (hy.not_isNameChar hrest)]

theorem endsAtSpace_cut (c : Char) : EndsAtSpace (cut c) := by
  obtain ⟨f, hf, hcut⟩ := scans_cut c
  rw [hcut]
  cases hf with
  | symbol => exact endsAtSpace_symbol _
  | double _ _ hs => exact endsAtSpace_double hs _
  | pair _ _ _ _ hs => exact endsAtSpace_pair hs _ _
  | quote hq =>
    have hc : isSpace c = false := by obtain rfl | rfl := hq <;> rfl
    exact endsAtSpace_string hc
  | placeholder => exact endsAtSpace_var
  | number => exact endsAtSpace_number c
  | word => exact endsAtSpace_word c
  | none => exact ⟨by simp, by simp⟩

/-! ## Tokens one after the other -/

theorem lexemes_spaces (hw : ∀ c ∈ w, isSpace c = true) (offset : Nat) (y : List Char) :
    lexemes offset (w ++ y) = lexemes (offset + utf8Length w) y := by
  induction w generalizing offset with
  | nil => rfl
  | cons c w ih =>
    obtain ⟨hc, hw⟩ := List.forall_mem_cons.1 hw
    rw [List.cons_append, lexemes_of_isSpace hc, ih hw, utf8Length_cons, Nat.add_assoc]

/-- Where a text breaks off after another one, the tokens of both come one after the other. -/
theorem lexemes_append (h : lexemes offset cs = .ok ls) (hy : Breaks y) :
    lexemes offset (cs ++ y) = (lexemes (offset + utf8Length cs) y).map (ls ++ ·) := by
  fun_induction lexemes offset cs generalizing ls with
  | case1 offset =>
    cases h
    rw [List.nil_append, utf8Length_nil, Nat.add_zero]
    cases lexemes offset y <;> rfl
  | case2 offset c r hc ih =>
    rw [List.cons_append, lexemes_of_isSpace hc, ih h, utf8Length_cons, Nat.add_assoc]
  | case3 => cases h
  | case4 offset c r hc t ht ih =>
    obtain ⟨others, ho, hls⟩ := bind_eq_ok_iff.1 h
    cases hls
    -- The first token is the same: what comes after it is unchanged, or breaks off at once.
    have hstop := (endsAtSpace_cut c).stops ht (hy.follows t.rest)
    rw [← List.append_assoc, cut_append ht] at hstop
    rw [List.cons_append, lexemes_of_cut (by simpa using hc) hstop]
    dsimp only
    rw [ih ho, ← cut_append ht, utf8Length_cons, utf8Length_append, ← Nat.add_assoc,
      ← Nat.add_assoc]
    cases lexemes (offset + c.utf8Size + utf8Length t.more + utf8Length t.rest) y <;> rfl

/-! ## Positions -/

/-- A token of a text that stands `n` bytes further on. -/
def Lexeme.shift (n : Nat) (l : Lexeme) : Lexeme := { l with offset := n + l.offset }

/-- What is wrong with a text that stands `n` bytes further on. -/
def Fault.shift (n : Nat) : Fault → Fault
  | .malformed position problem => .malformed (n + position) problem
  | fault => fault

/-- The lexer counts on from the offset it is given, and uses it for nothing else. -/
theorem lexemes_add (n offset : Nat) (cs : List Char) : lexemes (n + offset) cs =
    ((lexemes offset cs).map (List.map (Lexeme.shift n))).mapError (Fault.shift n) := by
  fun_induction lexemes offset cs with
  | case1 =>
    rw [lexemes]
    rfl
  | case2 offset c r hc ih => rw [lexemes_of_isSpace hc, Nat.add_assoc, ih]
  | case3 offset c r hc problem ht =>
    rw [lexemes_of_error (by simpa using hc) ht]
    rfl
  | case4 offset c r hc t ht ih =>
    rw [lexemes_of_cut (by simpa using hc) ht, Nat.add_assoc, Nat.add_assoc, ← Nat.add_assoc offset,
      ih]
    cases lexemes (offset + c.utf8Size + utf8Length t.more) t.rest <;> rfl

theorem exists_malformed_of_lexemes {fault : Fault} (h : lexemes offset cs = .error fault) :
    ∃ position problem, fault = .malformed position problem := by
  fun_induction lexemes offset cs with
  | case1 => cases h
  | case2 offset c r hc ih => exact ih h
  | case3 =>
    cases h
    exact ⟨_, _, rfl⟩
  | case4 offset c r hc t ht ih =>
    cases hr : lexemes (offset + c.utf8Size + utf8Length t.more) t.rest with
    | ok =>
      rw [hr] at h
      cases h
    | error =>
      rw [hr] at h
      cases h
      exact ih hr

section

variable {x w : String}

/-- What is found in `y` after white space is found there in `y` alone, only further on. -/
theorem tokenize_append_eq_shift (hx : tokenize x = .ok ls) (hne : w ≠ "")
    (hw : ∀ c ∈ w.toList, isSpace c = true) (y : String) : tokenize (x ++ w ++ y) =
      ((tokenize y).map fun ls' => ls ++ ls'.map (Lexeme.shift (x ++ w).utf8ByteSize)).mapError
        (Fault.shift (x ++ w).utf8ByteSize) := by
  have hbreaks : Breaks (w.toList ++ y.toList) :=
    breaks_append (by simpa [String.toList_eq_nil_iff] using hne) hw y.toList
  have hsize : 0 + utf8Length x.toList + utf8Length w.toList = (x ++ w).utf8ByteSize + 0 := by
    rw [utf8Length_toList, utf8Length_toList, String.utf8ByteSize_append]
    omega
  rw [tokenize, String.toList_append, String.toList_append, List.append_assoc,
    lexemes_append hx hbreaks, lexemes_spaces hw, hsize, lexemes_add, tokenize]
  cases lexemes 0 y.toList <;> rfl

/-- **White space separates.** After a text that the lexer takes apart and white space, a text is
taken apart as by itself, and what is wrong with it is the same: only its positions move by what
stands before it. -/
theorem tokenize_append_space (hx : tokenize x = .ok ls) (hne : w ≠ "")
    (hw : ∀ c ∈ w.toList, isSpace c = true) (y : String) :
    ((∃ ls', tokenize (x ++ w ++ y) = .ok ls') ↔ ∃ ls', tokenize y = .ok ls') ∧
      (∀ ls', tokenize y = .ok ls' → tokenize (x ++ w ++ y) =
        .ok (ls ++ ls'.map (Lexeme.shift (x ++ w).utf8ByteSize))) ∧
      ∀ fault, tokenize y = .error fault → ∃ position problem,
        fault = .malformed position problem ∧ tokenize (x ++ w ++ y) =
          .error (.malformed ((x ++ w).utf8ByteSize + position) problem) := by
  rw [tokenize_append_eq_shift hx hne hw]
  cases hy : tokenize y with
  | ok ls' => simp [Except.map, Except.mapError]
  | error fault =>
    obtain ⟨position, problem, rfl⟩ := exists_malformed_of_lexemes hy
    simp [Except.map, Except.mapError, Fault.shift]

end

theorem tokenize_append_space_no_break :
    tokenize "é>" = .ok [⟨.ident "é", 0⟩, ⟨.gt, 2⟩] ∧
      tokenize "é>=1.5e+" = .error (.malformed 4 (.invalidNumber "1.5e+")) ∧
      tokenize ("é>" ++ "\u00a0" ++ "é>=1.5e+") =
        .error (.malformed 9 (.invalidNumber "1.5e+")) := by
  have hx : tokenize "é>" = .ok [⟨.ident "é", 0⟩, ⟨.gt, 2⟩] := by cbv
  have hy : tokenize "é>=1.5e+" = .error (.malformed 4 (.invalidNumber "1.5e+")) := by cbv
  have hw : ∀ c ∈ "\u00a0".toList, isSpace c = true := by
    intro c hc
    obtain rfl : c = '\u00a0' := by simpa using hc
    rfl
  obtain ⟨-, -, hfault⟩ := tokenize_append_space hx (by decide) hw "é>=1.5e+"
  obtain ⟨position, problem, heq, hfault⟩ := hfault _ hy
  cases heq
  exact ⟨hx, hy, hfault⟩

end GuardTree.Formula
