import GuardTree.Proofs.Formula.FrontToken
import GuardTree.Proofs.Formula.Literal
import GuardTree.Proofs.Formula.Recognition
import GuardTree.Reduction.Engine

/-! # Expansion keeps the shape of a guard

Expansion rewrites the text of a key and knows nothing of tokens, the lexer reads what comes out. In
a key of seven-bit characters they meet at the boundaries of tokens: a placeholder of the text is a
placeholder token or stands inside a literal, and the values that `Admits` asks for cannot join
with what stands beside them. So the expanded text is cut at the same places
(`Cuts.substitute`), and what becomes of the tokens is an expression of the same shape and depth.
-/

namespace GuardTree.Formula

set_option autoImplicit false

open Text Placeholder

def Segment.IsPlaceholder : Segment → Prop
  | .token (.var _) _ => True
  | _ => False

/-- What is asked of the values of a key's placeholders. -/
structure Admits (r : Resolver) (segs : List Segment) : Prop where
  /-- Outside literals the full names are known, and their values are words or numbers. -/
  outside : ∀ name text, Segment.token (.var name) text ∈ segs →
    ∃ v t, r name = some v ∧ Denotes v t
  /-- No placeholder touches a word among the operators. -/
  apart : segs.IsChain fun s s' =>
    ¬ (s.IsPlaceholder ∧ s'.IsKeyword) ∧ ¬ (s.IsKeyword ∧ s'.IsPlaceholder)
  /-- The values of the others leave their literals whole. -/
  inside : ∀ s text, Segment.token (.str s) text ∈ segs →
    ∀ p ∈ Placeholder.all (String.ofList text),
      ∃ v, (lookUp r p).outcome = .ok (some v) ∧ Harmless v

variable {r : Resolver} {c : Char} {cs : List Char} {t : Cut} {segs : List Segment}

theorem Admits.tail {s : Segment} (h : Admits r (s :: segs)) : Admits r segs where
  outside name text hm := h.outside name text (List.mem_cons_of_mem _ hm)
  apart := h.apart.tail
  inside s text hm := h.inside s text (List.mem_cons_of_mem _ hm)

/-! ## Tokens and pieces -/

theorem nameOf_eq_wordOf {cs : List Char} (ha : ∀ c ∈ cs, isAscii c = true) :
    nameOf cs = wordOf cs ∧ afterName cs = afterWord cs := by
  induction cs with
  | nil => exact ⟨rfl, rfl⟩
  | cons c cs ih =>
    have hc : isNameChar c = isWordChar c := by
      have hc := ha c List.mem_cons_self
      rw [isNameChar_ascii hc, isWordChar_ascii hc]
    obtain ⟨ih₁, ih₂⟩ := ih fun d hd => ha d (List.mem_cons_of_mem _ hd)
    unfold nameOf wordOf at ih₁ ⊢
    unfold afterName afterWord at ih₂ ⊢
    rw [List.takeWhile_cons, List.takeWhile_cons, List.dropWhile_cons, List.dropWhile_cons, hc, ih₁,
      ih₂]
    exact ⟨rfl, rfl⟩

/-- In seven-bit text the lexer and the expansion see the same placeholders. -/
theorem cut?_of_cutVar (h : cutVar cs = .ok t) (ha : ∀ c ∈ cs, isAscii c = true) :
    ∃ p, cut? cs = some (p, t.rest) ∧ t.token = .var p.name := by
  unfold cutVar at h
  split at h
  case h_1 cs =>
    obtain ⟨hn, hr⟩ := nameOf_eq_wordOf fun c hc => ha c (List.mem_cons_of_mem _ hc)
    rw [hn, hr] at h
    split at h
    case isTrue => cases h
    case isFalse he =>
      split at h
      case h_2 => cases h
      case h_1 rest hd =>
        cases h
        refine ⟨⟨String.ofList (wordOf cs), true⟩, ?_, rfl⟩
        simp only [cut?, if_neg he, hd]
  case h_2 hb =>
    obtain ⟨hn, hr⟩ := nameOf_eq_wordOf ha
    rw [hn, hr] at h
    split at h
    case isTrue => cases h
    case isFalse he =>
      cases h
      refine ⟨⟨String.ofList (wordOf cs), false⟩, ?_, rfl⟩
      have hhead : cs.head? ≠ some '\x7b' := by
        intro hc
        obtain ⟨cs, rfl⟩ := List.head?_eq_some_iff.1 hc
        exact hb _ rfl
      rw [cut?_bare hhead, if_neg he]

/-- Placeholders stand in placeholder tokens and in literals only. -/
theorem pieces_of_cut (h : cut c cs = .ok t) (hv : c ≠ '$') (hq : ¬ (c = '"' ∨ c = '\x27')) :
    pieces (c :: cs) = (c :: t.more).map .literal ++ pieces t.rest := by
  rw [← cut_append h, pieces_cons hv, pieces_append_of_not_mem (cut_not_mem h hv hq)]
  rfl

theorem pieces_of_cutVar (h : cutVar cs = .ok t) (ha : ∀ c ∈ cs, isAscii c = true) :
    ∃ p : Placeholder, t.token = .var p.name ∧
      pieces ('$' :: cs) = .placeholder p :: pieces t.rest := by
  obtain ⟨p, hcut, ht⟩ := cut?_of_cutVar h ha
  exact ⟨p, ht, pieces_placeholder hcut⟩

/-! ## What may follow -/

theorem Cuts.var_of_dollar (h : Cuts cs segs) (hc : cs.head? = some '$') :
    ∃ name text segs', segs = .token (.var name) text :: segs' := by
  obtain ⟨cs, rfl⟩ := List.head?_eq_some_iff.1 hc
  cases h with
  | space hs => exact absurd hs (by decide)
  | token _ ht =>
    obtain ⟨name, hname⟩ := cutVar_token ht
    rw [hname]
    exact ⟨name, _, _, rfl⟩

theorem Cuts.head?_ne_point (h : Cuts cs segs) : cs.head? ≠ some '.' := by
  intro hc
  obtain ⟨cs, rfl⟩ := List.head?_eq_some_iff.1 hc
  cases h with
  | space hs => exact absurd hs (by decide)
  | token _ ht => cases ht

theorem Cuts.of_isNameChar (h : Cuts cs segs) {d : Char} (hd : d ∈ cs.head?)
    (hn : isNameChar d = true) :
    ∃ t text segs', segs = .token t text :: segs' ∧
      (t.IsOperand ∨ Segment.IsKeyword (.token t text)) := by
  obtain ⟨cs, rfl⟩ := List.head?_eq_some_iff.1 hd
  cases h with
  | space hs =>
    rw [not_isNameChar_of_isSpace hs] at hn
    cases hn
  | token _ ht => exact ⟨_, _, _, rfl, isOperand_or_isKeyword ht hn⟩

theorem isOperand_var (name : String) : Token.IsOperand (.var name) := ⟨_, .var name⟩

theorem Parted.not_isOperand {t u : Token} {text text' : List Char}
    (h : Parted (tokensOf (.token t text :: .token u text' :: segs))) (ht : t.IsOperand) :
    ¬ u.IsOperand := fun hu => (List.isChain_cons_cons.1 h).1 ⟨ht, hu⟩

theorem head?_after_placeholder {name : String} {text : List Char} (h : Cuts cs segs)
    (hr : Admits r (.token (.var name) text :: segs))
    (hp : Parted (tokensOf (.token (.var name) text :: segs))) :
    ∀ d ∈ cs.head?, isNameChar d = false ∧ d ≠ '.' ∧ d ≠ '$' := by
  intro d hd
  refine ⟨?_, ?_, ?_⟩
  · by_contra hn
    obtain ⟨t, text', segs', rfl, ho | hk⟩ := h.of_isNameChar hd (by simpa using hn)
    · exact hp.not_isOperand (isOperand_var name) ho
    · exact (List.isChain_cons_cons.1 hr.apart).1.1 ⟨trivial, hk⟩
  · rintro rfl
    exact h.head?_ne_point hd
  · rintro rfl
    obtain ⟨name', text', segs', rfl⟩ := h.var_of_dollar hd
    exact hp.not_isOperand (isOperand_var name) (isOperand_var name')

theorem head?_after_word {token : Token} {text : List Char} (h : Cuts cs segs)
    (hw : token.IsOperand ∨ Segment.IsKeyword (.token token text))
    (hr : Admits r (.token token text :: segs))
    (hp : Parted (tokensOf (.token token text :: segs))) : cs.head? ≠ some '$' := by
  intro hd
  obtain ⟨name, text', segs', rfl⟩ := h.var_of_dollar hd
  obtain ho | hk := hw
  · exact hp.not_isOperand ho (isOperand_var name)
  · exact (List.isChain_cons_cons.1 hr.apart).1.2 ⟨hk, trivial⟩

/-! ## The expanded text -/

theorem flatMap_literal (cs : List Char) :
    (cs.map Piece.literal).flatMap (Piece.substitute r) = cs := by
  induction cs with
  | nil => rfl
  | cons c cs ih =>
    rw [List.map_cons, List.flatMap_cons, ih]
    rfl

/-- Where `t` is taken off the front of a text, what becomes of it is taken off the front of the
expanded text. -/
def Replaces (r : Resolver) (c : Char) (cs : List Char) (t : Cut) : Prop :=
  (∀ p, .placeholder p ∈ pieces (c :: cs) →
    (found? r p).isSome ∨ .placeholder p ∈ pieces t.rest) ∧
  ∃ d ds token, substituted r (c :: cs) = d :: (ds ++ substituted r t.rest) ∧
    (d = c ∨ c = '$' ∧ isNameChar d = true) ∧ isSpace d = false ∧
    cut d (ds ++ substituted r t.rest) = .ok ⟨token, ds, substituted r t.rest⟩ ∧
    Token.Expands r t.token token

theorem replaces_placeholder (h : cut '$' cs = .ok t) (ha : ∀ c ∈ cs, isAscii c = true)
    (hcuts : Cuts t.rest segs) (hr : Admits r (.token t.token ('$' :: t.more) :: segs))
    (hp : Parted (tokensOf (.token t.token ('$' :: t.more) :: segs)))
    (hgoes : GoesOnLike t.rest (substituted r t.rest)) : Replaces r '$' cs t := by
  obtain ⟨p, htoken, hpieces⟩ := pieces_of_cutVar h ha
  rw [htoken] at hr hp
  obtain ⟨v, token, hval, hden⟩ := hr.outside p.name _ List.mem_cons_self
  have hfound := found?_of_known hval
  have hnext := head?_after_placeholder hcuts hr hp
  have hhead := hgoes.head?_eq fun hd => (hnext '$' hd).2.2 rfl
  have hstop : ∀ d ∈ (substituted r t.rest).head?, isNameChar d = false ∧ d ≠ '.' := by
    intro d hd
    rw [hhead] at hd
    exact ⟨(hnext d hd).1, (hnext d hd).2.1⟩
  obtain ⟨d, ds, hds, hname, hcut⟩ := hden.cut hstop
  have hspace := not_isSpace_of_isNameChar hname
  refine ⟨fun q hm => ?_, d, ds, token, ?_, .inr ⟨rfl, hname⟩, hspace, hcut, ?_⟩
  · rw [hpieces, List.mem_cons] at hm
    obtain hm | hm := hm
    · cases hm
      exact .inl (by rw [hfound]; rfl)
    · exact .inr hm
  · rw [substituted, hpieces, List.flatMap_cons, Piece.substitute, hfound]
    exact congrArg (· ++ substituted r t.rest) hds
  · rw [htoken]
    exact .var hval hden

theorem replaces_literal (hq : c = '"' ∨ c = '\x27') (h : cut c cs = .ok t) (hc : isSpace c = false)
    (hr : Admits r (.token t.token (c :: t.more) :: segs)) : Replaces r c cs t := by
  have hv : c ≠ '$' := by obtain rfl | rfl := hq <;> decide
  have hcut : ∀ cs, cut c cs = cutString c cs := by
    intro cs
    obtain rfl | rfl := hq <;> rfl
  rw [hcut] at h
  obtain ⟨hclose, ⟨s, htoken⟩, hpieces⟩ := pieces_of_cutString h hq
  rw [htoken] at hr
  have hinside : ∀ p, .placeholder p ∈ pieces (c :: t.more) →
      ∃ v, found? r p = some v ∧ Harmless v := by
    intro p hm
    have hall : p ∈ Placeholder.all (String.ofList (c :: t.more)) := by
      rwa [mem_all_iff, String.toList_ofList]
    obtain ⟨v, hl, hharm⟩ := hr.inside s _ List.mem_cons_self p hall
    rw [lookUp_outcome] at hl
    exact ⟨v, Except.ok.inj hl, hharm⟩
  have hbody : closes c false (substituted r t.more) = true := by
    refine closes_substituted hq hclose fun p hm => hinside p ?_
    rw [pieces_cons hv]
    exact List.mem_cons_of_mem _ hm
  obtain ⟨s', hs'⟩ := stringBody_of_closes hbody
  refine ⟨fun p hm => ?_, c, substituted r t.more, .str (String.ofList s'), ?_, .inl rfl, hc, ?_,
    ?_⟩
  · rw [hpieces, List.mem_append] at hm
    obtain hm | hm := hm
    · obtain ⟨v, hfound, -⟩ := hinside p hm
      exact .inl (by rw [hfound]; rfl)
    · exact .inr hm
  · rw [substituted, hpieces, pieces_cons hv, List.flatMap_append]
    rfl
  · rw [hcut, cutString, hs']
  · rw [htoken]
    exact .str s _

theorem replaces_other (hv : c ≠ '$') (hq : ¬ (c = '"' ∨ c = '\x27')) (h : cut c cs = .ok t)
    (hc : isSpace c = false) (hcuts : Cuts t.rest segs)
    (hr : Admits r (.token t.token (c :: t.more) :: segs))
    (hp : Parted (tokensOf (.token t.token (c :: t.more) :: segs)))
    (hgoes : GoesOnLike t.rest (substituted r t.rest)) : Replaces r c cs t := by
  have hpieces := pieces_of_cut h hv hq
  have hw : isNameChar c = true → t.rest.head? ≠ some '$' := fun hn =>
    head?_after_word hcuts (isOperand_or_isKeyword h hn) hr hp
  refine ⟨fun p hm => ?_, c, t.more, t.token, ?_, .inl rfl, hc, cut_congr h hv hq hgoes hw,
    .same (cut_token_ne_var h hv)⟩
  · rw [hpieces, List.mem_append, List.mem_map] at hm
    obtain ⟨d, -, hd⟩ | hm := hm
    · cases hd
    · exact .inr hm
  · rw [substituted, hpieces, List.flatMap_append, flatMap_literal]
    rfl

/-- The expanded text of a key is cut into what becomes of the key's own tokens. -/
theorem Cuts.substitute (h : Cuts cs segs) (ha : ∀ c ∈ cs, isAscii c = true) (hr : Admits r segs)
    (hp : Parted (tokensOf segs)) :
    (∀ p, .placeholder p ∈ pieces cs → (found? r p).isSome) ∧
      GoesOnLike cs (substituted r cs) ∧ ∃ segs', Cuts (substituted r cs) segs' ∧
        List.Forall₂ (Token.Expands r) (tokensOf segs) (tokensOf segs') := by
  induction h with
  | nil =>
    refine ⟨fun p hm => by simp [pieces] at hm, ?_, [], ?_, .nil⟩
    · exact .inl (by simp [substituted, pieces])
    · simpa [substituted, pieces] using Cuts.nil
  | @space c cs segs hc _ ih =>
    have hv : c ≠ '$' := by rintro rfl; exact absurd hc (by decide)
    obtain ⟨hfound, -, segs', hcuts', htokens⟩ :=
      ih (fun d hd => ha d (List.mem_cons_of_mem _ hd)) hr.tail hp
    have hsub : substituted r (c :: cs) = c :: substituted r cs := by
      rw [substituted, pieces_cons hv]
      rfl
    refine ⟨fun p hm => ?_, .inl (by rw [hsub]; rfl), .space c :: segs', ?_, htokens⟩
    · rw [pieces_cons hv] at hm
      exact hfound p (by simpa using hm)
    · rw [hsub]
      exact .space hc hcuts'
  | @token c cs t segs hc ht hcuts ih =>
    have hacs : ∀ d ∈ cs, isAscii d = true := fun d hd => ha d (List.mem_cons_of_mem _ hd)
    have hrest : ∀ d ∈ t.rest, isAscii d = true := fun d hd =>
      hacs d (cut_append ht ▸ List.mem_append_right _ hd)
    obtain ⟨hfound, hgoes, segs', hcuts', htokens⟩ := ih hrest hr.tail hp.tail
    have hreplaces : Replaces r c cs t := by
      by_cases hv : c = '$'
      · obtain rfl := hv
        exact replaces_placeholder ht hacs hcuts hr hp hgoes
      · by_cases hq : c = '"' ∨ c = '\x27'
        · exact replaces_literal hq ht hc hr
        · exact replaces_other hv hq ht hc hcuts hr hp hgoes
    obtain ⟨hfound', d, ds, token, hsub, hd, hspace, hcut, htoken⟩ := hreplaces
    refine ⟨fun p hm => (hfound' p hm).elim id (hfound p), ?_, .token token (d :: ds) :: segs', ?_,
      .cons htoken htokens⟩
    · rw [hsub]
      obtain rfl | ⟨rfl, hname⟩ := hd
      · exact .inl rfl
      · exact .inr ⟨rfl, d, rfl, hname⟩
    · rw [hsub]
      exact .token hspace hcut hcuts'

theorem substituted_of_not_mem (h : '$' ∉ cs) : substituted r cs = cs := by
  have happ := pieces_append_of_not_mem h []
  rw [List.append_nil] at happ
  rw [substituted, happ, List.flatMap_append, flatMap_literal]
  simp [pieces]

theorem parse_eq_ok_iff_derives {source : String} {e : Expr} (h : Cuts source.toList segs) :
    parse source = .ok e ↔ ∃ n, n ≤ maxDepth ∧ Derives (.chain .or) (tokensOf segs) e n := by
  obtain ⟨os, hos, hts⟩ := h.lexemes 0
  rw [parse_eq_ok_iff, ← hts]
  constructor
  · rintro ⟨os', hos', he⟩
    obtain rfl : os = os' := Except.ok.inj (hos.symm.trans hos')
    exact derives_of_parseTokens he
  · rintro ⟨n, hn, hd⟩
    exact ⟨os, hos, parseTokens_of_derives hd hn⟩

/-- A token that stands alone and makes a leaf is read as that leaf. -/
theorem parse_of_makes {source : String} {t : Token} {text : List Char} {e : Expr}
    (hs : Cuts source.toList [.token t text]) (ht : Makes t e) : parse source = .ok e :=
  (parse_eq_ok_iff_derives hs).2 ⟨0, Nat.zero_le _, ht.derives (.chain .or)⟩

/-- Two leaves with a comparison between them are read as their comparison. -/
theorem parse_of_compares {source : String} {t u v : Token} {e e' : Expr} {op : Comparison}
    (hs : Cuts source.toList segs) (hts : tokensOf segs = [t, u, v]) (ht : Makes t e)
    (hu : Compares [u] op) (hv : Makes v e') : parse source = .ok (.compare e [(op, e')]) := by
  have hlinks : Compared [u, v] [(op, e')] 0 := .cons hu (hv.derives _) .nil
  have hd : Derives .comparison [t, u, v] (.compare e [(op, e')]) 0 :=
    .compare (ht.derives _) hlinks (List.cons_ne_nil _ _)
  refine (parse_eq_ok_iff_derives hs).2 ⟨0, Nat.zero_le _, ?_⟩
  rw [hts]
  exact hd.expression

theorem evaluate_of_parse {source : String} {e : Expr} {fault : Fault} (h : parse source = .ok e)
    (he : e.eval = .error fault) : evaluate source = .error ⟨source, fault⟩ := by
  have hbind : (Except.ok e >>= Expr.eval) = .error fault := he
  rw [evaluate, h, hbind]

theorem evaluate_eq_ok_iff {source : String} {v : Value} :
    evaluate source = .ok v ↔ ∃ e, parse source = .ok e ∧ e.eval = .ok v := by
  rw [evaluate, ← bind_eq_ok_iff]
  split
  all_goals
    rename_i heq
    simp [heq]

theorem isGuard_of_parse {key : String} {e : Expr} (h : parse key = .ok e) :
    Engine.formulas.isGuard key = (key == otherwiseKey || e.isLogical) := by
  show (Engine.classifyFormula key).isGuard = _
  unfold Engine.classifyFormula
  rw [h]
  split
  case isTrue hk => simp [hk, Verdict.isGuard]
  case isFalse hk => cases he : e.isLogical <;> simp [hk, he, Verdict.isGuard]

/-- **Expansion keeps the shape of a guard.** The expanded key is an expression again, the same but
for its placeholders and literals, and a guard if the key was one. It can become a guard in one way
only, by being spelled `else`. -/
theorem expand_keeps_shape {key : String} {e : Expr} {segs : List Segment} {r : Resolver}
    (ha : ∀ c ∈ key.toList, isAscii c = true) (he : parse key = .ok e)
    (hs : Cuts key.toList segs) (hr : Admits r segs) :
    ∃ key' e', (expand (some r) key).outcome = .ok key' ∧ parse key' = .ok e' ∧
      Expr.Expands r e e' ∧
      Engine.formulas.isGuard key' = (Engine.formulas.isGuard key || key' == "else") := by
  obtain ⟨n, hn, hd⟩ := (parse_eq_ok_iff_derives hs).1 he
  obtain ⟨hfound, -, segs', hcuts, htokens⟩ := hs.substitute ha hr hd.parted
  obtain ⟨e', hd', hexp⟩ := hd.expand htokens
  have hx := expand_outcome fun p hp => hfound p (mem_all_iff.1 hp)
  have hparse : parse (String.ofList (substituted r key.toList)) = .ok e' := by
    rw [← String.toList_ofList (l := substituted r key.toList)] at hcuts
    exact (parse_eq_ok_iff_derives hcuts).2 ⟨n, hn, hd'⟩
  refine ⟨_, e', hx, hparse, hexp, ?_⟩
  rw [isGuard_of_parse hparse, isGuard_of_parse he, hexp.isLogical_eq, otherwiseKey]
  by_cases hk : key = "else"
  · have hsub : substituted r key.toList = key.toList := by
      rw [hk]
      exact substituted_of_not_mem (by decide)
    rw [hsub, String.ofList_toList, hk]
    rfl
  · rw [beq_false_of_ne hk, Bool.false_or, Bool.or_comm]

/-- A number takes the place of an operand, and a word that of a part of a literal. -/
theorem expand_keeps_shape_comparison :
    ∃ key' e', (expand (some fun name => if name = "N" then some "12" else some "gx1")
        "$N>'$G'").outcome = .ok key' ∧ parse key' = .ok e' ∧
      Expr.Expands (fun name => if name = "N" then some "12" else some "gx1")
        (.compare (.var "N") [(.gt, .literal (.str "$G"))]) e' ∧
      Engine.formulas.isGuard key' = (Engine.formulas.isGuard "$N>'$G'" || key' == "else") := by
  have hs : Cuts "$N>'$G'".toList [.token (.var "N") ['$', 'N'], .token .gt ['>'],
      .token (.str "$G") ['\x27', '$', 'G', '\x27']] := by
    refine .token (t := ⟨.var "N", ['N'], ['>', '\x27', '$', 'G', '\x27']⟩) rfl rfl ?_
    refine .token (t := ⟨.gt, [], ['\x27', '$', 'G', '\x27']⟩) rfl rfl ?_
    exact .token (t := ⟨.str "$G", ['$', 'G', '\x27'], []⟩) rfl rfl .nil
  have hsum : ∀ {t e}, Makes t e → Derives (.chain .sum) [t] e 0 := fun h =>
    .chain (.first .sum (.chain (.first .product (.primary (.single h)))))
  have hd : Derives (.chain .or) [.var "N", .gt, .str "$G"] _ 0 :=
    .chain (.first .or (.chain (.first .and (.comparison
      (.compare (hsum (.var "N")) (.cons .gt (hsum (.str "$G")) .nil) (by simp))))))
  refine expand_keeps_shape (List.all_eq_true.1 rfl)
    ((parse_eq_ok_iff_derives hs).2 ⟨0, Nat.zero_le _, hd⟩) hs ⟨?_, ?_, ?_⟩
  · intro name text hm
    obtain ⟨rfl, rfl⟩ : name = "N" ∧ text = ['$', 'N'] := by simpa using hm
    exact ⟨"12", _, rfl, .number (by decide) (List.all_eq_true.1 rfl) (by decide)⟩
  · simp [Segment.IsPlaceholder, Segment.IsKeyword, keywords]
  · intro s text hm p hp
    obtain ⟨rfl, rfl⟩ : s = "$G" ∧ text = ['\x27', '$', 'G', '\x27'] := by simpa using hm
    have hall : Placeholder.all (String.ofList ['\x27', '$', 'G', '\x27']) = [⟨"G", false⟩] := by
      cbv
    rw [hall, List.mem_singleton] at hp
    rw [hp]
    refine ⟨"gx1", rfl, by decide, ?_⟩
    simp

/-- A name alone is no guard, but its value can be `else`. -/
theorem expand_does_not_keep_isGuard :
    ¬ ∀ (key : String) (e : Expr) (segs : List Segment) (r : Resolver),
      (∀ c ∈ key.toList, isAscii c = true) → parse key = .ok e → Cuts key.toList segs →
      Admits r segs →
      ∃ key' e', (expand (some r) key).outcome = .ok key' ∧ parse key' = .ok e' ∧
        Expr.Expands r e e' ∧ Engine.formulas.isGuard key' = Engine.formulas.isGuard key := by
  intro h
  have hs : Cuts "$A".toList [.token (.var "A") ['$', 'A']] :=
    .token (t := ⟨.var "A", ['A'], []⟩) rfl rfl .nil
  have hd : Derives (.chain .or) [.var "A"] (.var "A") 0 :=
    .chain (.first .or (.chain (.first .and (.comparison (.sum (.chain (.first .sum
      (.chain (.first .product (.primary (.single (.var "A"))))))))))))
  have he : parse "$A" = .ok (.var "A") :=
    (parse_eq_ok_iff_derives hs).2 ⟨0, Nat.zero_le _, hd⟩
  have hr : Admits (fun _ => some "else") [.token (.var "A") ['$', 'A']] := by
    refine ⟨?_, .singleton _, ?_⟩
    · intro name text _
      exact ⟨"else", _, rfl, .word rfl (by decide) (by simp; decide) (by decide)⟩
    · intro s text hm
      simp at hm
  obtain ⟨key', e', hx, -, -, hg⟩ := h "$A" (.var "A") _ _ (List.all_eq_true.1 rfl) he hs hr
  have hexp : (expand (some fun _ => some "else") "$A").outcome = .ok "else" := by cbv
  obtain rfl : "else" = key' := Except.ok.inj (hexp.symm.trans hx)
  have helse : Engine.formulas.isGuard "else" = true := by decide
  rw [helse, isGuard_of_parse he] at hg
  cases hg

end GuardTree.Formula
