import GuardTree.Proofs.Decimal.Digits
import GuardTree.Proofs.Formula.Connectives
import GuardTree.Proofs.Formula.IntegerArithmetic

/-! # Values are written as expressions for themselves

The text of a value, as messages show it, is an expression with this value, unless it would have to
be escaped or holds floating-point numbers (`evaluate_display`). Lists are written out between
brackets and a negative integer as a sign before its size, so the budget of the parser is used up by
the lists that stand in one another and by a sign in the innermost one.

* `Value.Plain`: the values whose text needs no escapes.
* `Value.nesting`: how many lists stand in one another.
* `SpellsWord`: the tokens of a text that a name or a number after it would go on with.
* `Writes`, `WritesRest`: what is shown of the text of a value, and of the items of a list after the
  first one.
-/

namespace GuardTree.Formula

set_option autoImplicit false

open Text Decimal

/-! ## Values and their nesting -/

/-- Nothing, booleans, texts without apostrophes and backslashes, all integers but the least one, and
lists of plain values. -/
inductive Value.Plain : Value → Prop
  | none : Value.Plain .none
  | bool (b : Bool) : Value.Plain (.bool b)
  | int {n : Int64} (h : n ≠ Int64.minValue) : Value.Plain (.int n)
  | str {s : String} (h : ∀ c ∈ s.toList, c ≠ '\x27' ∧ c ≠ '\\') : Value.Plain (.str s)
  | list {items : List Value} (h : ∀ v ∈ items, Value.Plain v) : Value.Plain (.list items)

mutual

/-- The most lists that stand in one another; an empty one counts. -/
def Value.nesting : Value → Nat
  | .list items => 1 + nestingOfItems items
  | .none => 0
  | .bool _ => 0
  | .int _ => 0
  | .float _ => 0
  | .str _ => 0

def nestingOfItems : List Value → Nat
  | [] => 0
  | item :: items => max item.nesting (nestingOfItems items)

end

theorem nesting_le_of_mem {items : List Value} {v : Value} (h : v ∈ items) :
    v.nesting ≤ nestingOfItems items := by
  induction items with
  | nil => cases h
  | cons item items ih =>
    rw [nestingOfItems]
    obtain rfl | h := List.mem_cons.1 h
    · exact Nat.le_max_left _ _
    · exact (ih h).trans (Nat.le_max_right _ _)

/-! ## Texts that a word would go on with -/

/-- The text is cut into the tokens, if neither a name nor a number can go on with what comes after
it. -/
def SpellsWord (cs : List Char) (ts : List Token) : Prop :=
  ∀ r, (∀ d ∈ r.head?, isNameChar d = false ∧ d ≠ '.') → SpellsBefore r cs ts

variable {c : Char} {cs cs' more : List Char} {t : Token} {ts ts' : List Token}

theorem Spells.word (h : Spells cs ts) : SpellsWord cs ts := fun r _ => h r

theorem Spells.append_word (h : Spells cs ts) (h' : SpellsWord cs' ts') :
    SpellsWord (cs ++ cs') (ts ++ ts') :=
  fun r hr => SpellsBefore.append (h (cs' ++ r)) (h' r hr)

theorem SpellsWord.append (h : SpellsWord cs ts) (h' : Spells (c :: cs') ts')
    (hc : isNameChar c = false ∧ c ≠ '.') : Spells (cs ++ c :: cs') (ts ++ ts') :=
  fun r => SpellsBefore.append (h (c :: cs' ++ r) (by simpa using hc)) (h' r)

theorem spellsWord_of_cut (hc : isSpace c = false)
    (ht : ∀ y : List Char, (∀ d ∈ y.head?, isNameChar d = false ∧ d ≠ '.') →
      cut c (more ++ y) = .ok ⟨t, more, y⟩) : SpellsWord (c :: more) [t] :=
  fun r hr _ hcuts => ⟨_, .token (t := ⟨t, more, r⟩) hc (ht r hr) hcuts, rfl⟩

theorem spells_space : Spells [' '] [] := fun _ _ hcuts => ⟨_, .space rfl hcuts, rfl⟩

/-! ## Leaves -/

/-- The text is that of an expression with the value `v`, and opens up to `n` levels. -/
def Writes (cs : List Char) (v : Value) (n : Nat) : Prop :=
  ∃ p : Phrase (.chain .or), SpellsWord cs p.tokens ∧ p.cost ≤ n ∧ p.expr.eval = .ok v

variable {v : Value} {vs : List Value} {n : Nat}

theorem writes_of_makes (h : SpellsWord cs [t]) (ht : Makes t (.literal v)) (n : Nat) :
    Writes cs v n :=
  ⟨ht.phrase _, h, Nat.zero_le n, by rw [Makes.phrase, Expr.eval]⟩

theorem spellsWord_of_letters {w : String} (hne : w ≠ "") (hw : ∀ c ∈ w.toList, c.isAlpha = true) :
    SpellsWord w.toList [.ofWord w] := by
  obtain ⟨c, more, hl⟩ := List.exists_cons_of_ne_nil fun hl => hne (String.toList_eq_nil_iff.1 hl)
  have hword : String.ofList (c :: more) = w := by rw [← hl, String.ofList_toList]
  rw [hl] at hw ⊢
  have hc : c.isAlpha = true := hw c List.mem_cons_self
  have hname : ∀ d ∈ c :: more, isNameChar d = true := fun d hd =>
    isNameChar_of_isAlphanum (by simp [Char.isAlphanum, hw d hd])
  have hascii := isAscii_of_isAlphanum (c := c) (by simp [Char.isAlphanum, hc])
  have hspace := not_isSpace_of_isNameChar (hname c List.mem_cons_self)
  refine spellsWord_of_cut hspace fun y hy => ?_
  rw [cut_word (not_isDigit_of_isAlpha hc) (by simp [isAlphabetic, hascii, hc])
    (fun d hd => hname d (List.mem_cons_of_mem _ hd)) fun d hd => (hy d hd).1, hword]

theorem writes_of_letters (w : String) (hne : w ≠ "") (hw : ∀ c ∈ w.toList, c.isAlpha = true)
    (hm : Makes (.ofWord w) (.literal v)) (n : Nat) : Writes w.toList v n :=
  writes_of_makes (spellsWord_of_letters hne hw) hm n

theorem spellsWord_toDigits (hn : n < 2 ^ 63) :
    SpellsWord (Nat.toDigits 10 n) [.int (Int64.ofNat n)] := by
  obtain ⟨c, more, hdigits, hc⟩ := toDigits_eq_cons n
  have hspace : isSpace c = false := forall_isDigit (p := fun c => isSpace c = false) (by decide) hc
  have hvalue : natOfDigits (c :: more) = n := hdigits ▸ natOfDigits_toDigits n
  have hall : ∀ d ∈ c :: more, d.isDigit = true := fun d hd =>
    isDigit_of_mem_toDigits (n := n) (by rwa [hdigits])
  have hle : natOfDigits (c :: more) ≤ maxInt := by
    rw [hvalue]
    exact Nat.le_sub_one_of_lt hn
  rw [hdigits]
  refine spellsWord_of_cut hspace fun y hy => ?_
  rw [cut_digits hall hle hy, hvalue]

/-- A negative integer is the negation of its size. -/
theorem writes_int {i : Int64} (hi : i ≠ Int64.minValue) (hn : 0 < n) :
    Writes (toString i.toInt).toList (.int i) n := by
  obtain ⟨size, htext, hlt, rfl⟩ | ⟨size, htext, hpos, hle, rfl⟩ := exists_toDigits i
  · rw [htext]
    exact writes_of_makes (spellsWord_toDigits hlt) (.int _) n
  · have hlt : size < 2 ^ 63 := by
      refine Nat.lt_of_le_of_ne hle ?_
      rintro rfl
      exact hi rfl
    have hsize : (Int64.ofNat size).toInt = size := Int64.toInt_ofNat_of_lt hlt
    have hfits : Fits (-(size : Int)) := fits_iff.2 (by omega)
    have hsign : Spells ['-'] [.minus] := spells_of_cut rfl fun _ => rfl
    let negated : Phrase (.chain .or) :=
      ⟨_, _, _, (Derives.neg ((Makes.int (Int64.ofNat size)).derives .unary)).expression⟩
    rw [htext]
    refine ⟨negated, hsign.append_word (spellsWord_toDigits hlt), hn, ?_⟩
    rw [Expr.eval, Expr.eval]
    show exact (-(Int64.ofNat size).toInt) = _
    rw [hsize, exact_of_fits hfits]
    rfl

theorem writes_quoted {s : String} (hs : ∀ c ∈ s.toList, c ≠ '\x27' ∧ c ≠ '\\') (n : Nat) :
    Writes ('\x27' :: (s.toList ++ ['\x27'])) (.str s) n := by
  have htext : Spells ('\x27' :: (s.toList ++ ['\x27'])) [.str s] := by
    refine spells_of_cut rfl fun r => ?_
    show cutString '\x27' _ = _
    rw [cutString, List.append_assoc, List.singleton_append, stringBody_of_plain (by decide) hs]
    dsimp only
    rw [String.ofList_toList]
  exact writes_of_makes htext.word (.str s) n

/-! ## Lists -/

/-- Further items of a list, each after a comma. -/
def furtherItems (ps : List (Phrase (.chain .or))) : List Token :=
  ps.flatMap fun p => .comma :: p.tokens

/-- After an item, the text is that of the further items `vs` of a list and of its end. -/
def WritesRest (cs : List Char) (vs : List Value) (n : Nat) : Prop :=
  ∃ ps : List (Phrase (.chain .or)), (∀ p ∈ ps, p.cost ≤ n) ∧
    evalAll (ps.map Phrase.expr) = .ok vs ∧
    ∀ cs' ts, SpellsWord cs' ts → Spells (cs' ++ cs) (ts ++ (furtherItems ps ++ [.rbracket]))

theorem exists_listed {p : Phrase (.chain .or)} {ps : List (Phrase (.chain .or))}
    (h : ∀ q ∈ p :: ps, q.cost ≤ n) :
    ∃ m ≤ n, Listed (p.tokens ++ furtherItems ps) ((p :: ps).map Phrase.expr) m := by
  induction ps generalizing p with
  | nil =>
    refine ⟨p.cost, h p List.mem_cons_self, ?_⟩
    rw [furtherItems, List.flatMap_nil, List.append_nil]
    exact .last p.derives
  | cons q ps ih =>
    obtain ⟨hp, hps⟩ := List.forall_mem_cons.1 h
    obtain ⟨m, hm, hlisted⟩ := ih hps
    exact ⟨max p.cost m, Nat.max_le.2 ⟨hp, hm⟩, .cons p.derives hlisted⟩

theorem evalAll_cons {e : Expr} {es : List Expr} (he : e.eval = .ok v) (hes : evalAll es = .ok vs) :
    evalAll (e :: es) = .ok (v :: vs) := by
  rw [evalAll, he, hes]
  rfl

theorem writesRest_nil (n : Nat) : WritesRest [']'] [] n := by
  refine ⟨[], by simp, by rw [List.map_nil, evalAll], fun cs' ts h => ?_⟩
  exact h.append (spells_of_cut rfl fun _ => rfl) (by decide)

theorem Writes.cons (h : Writes cs v n) (h' : WritesRest cs' vs n) :
    WritesRest (',' :: ' ' :: (cs ++ cs')) (v :: vs) n := by
  obtain ⟨p, hcs, hp, hv⟩ := h
  obtain ⟨ps, hps, hvs, hcs'⟩ := h'
  refine ⟨p :: ps, List.forall_mem_cons.2 ⟨hp, hps⟩, evalAll_cons hv hvs, fun cs₀ ts h₀ => ?_⟩
  have hcomma : Spells [','] [.comma] := spells_of_cut rfl fun _ => rfl
  have hitems := hcomma.append (spells_space.append (hcs' cs p.tokens hcs))
  have hall := h₀.append hitems (by decide)
  rwa [furtherItems, List.flatMap_cons, List.append_assoc]

theorem Writes.list (h : Writes cs v n) (h' : WritesRest cs' vs n) :
    Writes ('[' :: (cs ++ cs')) (.list (v :: vs)) (1 + n) := by
  obtain ⟨p, hcs, hp, hv⟩ := h
  obtain ⟨ps, hps, hvs, hcs'⟩ := h'
  obtain ⟨m, hm, hlisted⟩ := exists_listed (List.forall_mem_cons.2 ⟨hp, hps⟩)
  have hopen : Spells ['['] [.lbracket] := spells_of_cut rfl fun _ => rfl
  have hall := (hopen.append (hcs' cs p.tokens hcs)).word
  rw [← List.append_assoc p.tokens] at hall
  refine ⟨⟨_, _, _, (Derives.list hlisted).expression⟩, hall, Nat.add_le_add_left hm 1, ?_⟩
  show (Expr.list (p.expr :: ps.map Phrase.expr)).eval = _
  rw [Expr.eval, evalAll_cons hv hvs]
  rfl

theorem writes_emptyList (n : Nat) : Writes ['[', ']'] (.list []) (1 + n) := by
  have hopen : Spells ['['] [.lbracket] := spells_of_cut rfl fun _ => rfl
  have hclose : Spells [']'] [.rbracket] := spells_of_cut rfl fun _ => rfl
  refine ⟨⟨_, _, _, Derives.empty.expression⟩, (hopen.append hclose).word, Nat.le_add_right 1 n, ?_⟩
  rw [Expr.eval, evalAll]
  rfl

theorem writesRest_displayRest {items : List Value}
    (h : ∀ v ∈ items, Writes v.display.toList v n) :
    WritesRest ((Value.displayRest items).toList ++ [']']) items n := by
  induction items with
  | nil =>
    rw [Value.displayRest]
    exact writesRest_nil n
  | cons item items ih =>
    obtain ⟨hitem, hitems⟩ := List.forall_mem_cons.1 h
    have htext : (", " ++ item.display ++ Value.displayRest items).toList ++ [']'] =
        ',' :: ' ' :: (item.display.toList ++ ((Value.displayRest items).toList ++ [']'])) := by
      simp [String.toList_append]
    rw [Value.displayRest, htext]
    exact hitem.cons (ih hitems)

theorem writes_list {items : List Value} (h : ∀ v ∈ items, Writes v.display.toList v n) :
    Writes (Value.list items).display.toList (.list items) (1 + n) := by
  cases items with
  | nil =>
    rw [Value.display]
    exact writes_emptyList n
  | cons item items =>
    obtain ⟨hitem, hitems⟩ := List.forall_mem_cons.1 h
    have htext : ("[" ++ item.display ++ Value.displayRest items ++ "]").toList =
        '[' :: (item.display.toList ++ ((Value.displayRest items).toList ++ [']'])) := by
      simp [String.toList_append]
    rw [Value.display, htext]
    exact hitem.list (writesRest_displayRest hitems)

/-- Under `n` lists there is room for one more level, which a sign may need. -/
theorem Value.Plain.writes {v : Value} (h : v.Plain) :
    ∀ n, v.nesting < n → Writes v.display.toList v n := by
  induction h with
  | none =>
    intro n _
    rw [Value.display]
    exact writes_of_letters "None" (by decide) (List.all_eq_true.1 rfl) .none n
  | bool b =>
    intro n _
    cases b with
    | true =>
      rw [Value.display]
      exact writes_of_letters "True" (by decide) (List.all_eq_true.1 rfl) .true n
    | false =>
      rw [Value.display]
      exact writes_of_letters "False" (by decide) (List.all_eq_true.1 rfl) .false n
  | int hi =>
    intro n hn
    rw [Value.display]
    exact writes_int hi (Nat.zero_lt_of_lt hn)
  | @str s hs =>
    intro n _
    have htext : ("'" ++ s ++ "'").toList = '\x27' :: (s.toList ++ ['\x27']) := by
      simp [String.toList_append]
    rw [Value.display, htext]
    exact writes_quoted hs n
  | list _ ih =>
    intro n hn
    rw [Value.nesting] at hn
    obtain ⟨m, rfl⟩ := Nat.exists_eq_add_of_le (Nat.one_le_of_lt hn)
    refine writes_list fun v hv => ih v hv m ?_
    have hle := nesting_le_of_mem hv
    omega

/-- **A plain value is written as an expression for itself.** The text of a value is evaluated to
this value if no text in it has an apostrophe or a backslash, its numbers are integers but the least
one, and its lists are nested no deeper than 127, whatever else stands in its texts. -/
theorem evaluate_display {v : Value} (hv : v.Plain) (hn : v.nesting ≤ 127) :
    evaluate v.display = .ok v := by
  obtain ⟨p, hp, hcost, heval⟩ := hv.writes maxDepth (Nat.lt_succ_of_le hn)
  obtain ⟨segs, hcuts, hts⟩ := hp [] (by simp) [] .nil
  have hparse : parse v.display = .ok p.expr := by
    rw [List.append_nil] at hcuts
    refine (parse_eq_ok_iff_derives hcuts).2 ⟨p.cost, hcost, ?_⟩
    rw [hts]
    exact (List.append_nil p.tokens).symm ▸ p.derives
  exact evaluate_eq_ok_iff.2 ⟨_, hparse, heval⟩

/-- A negative integer, a text that looks like an expression and a list in a list. -/
theorem evaluate_display_list :
    evaluate "[-7, '$a or b', [None]]" =
      .ok (.list [.int (-7), .str "$a or b", .list [.none]]) := by
  have hplain : (Value.list [.int (-7), .str "$a or b", .list [.none]]).Plain := by
    refine .list fun v hv => ?_
    simp only [List.mem_cons, List.not_mem_nil, or_false] at hv
    obtain rfl | rfl | rfl := hv
    · exact .int (by decide)
    · exact .str (by simp)
    · refine .list fun v hv => ?_
      obtain rfl := List.mem_singleton.1 hv
      exact .none
  have hnesting : (Value.list [.int (-7), .str "$a or b", .list [.none]]).nesting ≤ 127 := by
    decide
  have htext : (Value.list [.int (-7), .str "$a or b", .list [.none]]).display =
      "[-7, '$a or b', [None]]" := by
    decide
  rw [← htext]
  exact evaluate_display hplain hnesting

end GuardTree.Formula
