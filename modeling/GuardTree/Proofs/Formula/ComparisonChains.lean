import GuardTree.Proofs.Formula.Connectives

/-! # Chains of comparisons

A chain such as `a < b <= c` is the conjunction of its links, although it evaluates `b` only once
(`comparison_chain_eq_conjunction`). A chain of two links or more is the `and` of its first link and
the chain of the others (`eval_compare_cons_cons`); the rest is about bracketings.

* `linkTests`: the comparisons that a chain is made of.
* `Comparand`: an operand with the operator before it, as they are written.
-/

namespace GuardTree.Formula

set_option autoImplicit false

/-- The comparisons of neighbouring operands. -/
def linkTests : Expr → List (Comparison × Expr) → List Expr
  | _, [] => []
  | first, link :: links => .compare first [link] :: linkTests link.2 links

/-- The operand on the right of all links. -/
def lastOperand : Expr → List (Comparison × Expr) → Expr
  | first, [] => first
  | _, link :: links => lastOperand link.2 links

variable {first : Expr} {link : Comparison × Expr} {links : List (Comparison × Expr)}

theorem linkTests_append_cons (first : Expr) (held : List (Comparison × Expr))
    (link : Comparison × Expr) (rest : List (Comparison × Expr)) :
    linkTests first (held ++ link :: rest) =
      linkTests first held ++ .compare (lastOperand first held) [link] :: linkTests link.2 rest := by
  induction held generalizing first with
  | nil => rfl
  | cons l held ih =>
    rw [List.cons_append, linkTests, ih]
    rfl

/-! ## One link and the others -/

theorem eval_compare_eq_ok {v : Value} (h : (Expr.compare first links).eval = .ok v) :
    ∃ b, v = .bool b := by
  rw [Expr.eval] at h
  obtain ⟨a, -, h⟩ := bind_eq_ok_iff.1 h
  obtain ⟨b, -, h⟩ := bind_eq_ok_iff.1 h
  cases h
  exact ⟨b, rfl⟩

/-- A comparison is passed by `and` if it holds. -/
theorem passes_compare_iff :
    Connective.and.Passes (.compare first links) ↔
      (Expr.compare first links).eval = .ok (.bool true) := by
  constructor
  · rintro ⟨v, hv, hpast⟩
    obtain ⟨b, rfl⟩ := eval_compare_eq_ok hv
    have htrue : b = true := hpast
    rw [hv, htrue]
  · intro h
    exact ⟨.bool true, h, rfl⟩

theorem passes_of_mem_linkTests {t : Expr} (ht : t ∈ linkTests first links) :
    Connective.and.Passes t ↔ t.eval = .ok (.bool true) := by
  induction links generalizing first with
  | nil => cases ht
  | cons link links ih =>
    obtain rfl | ht := List.mem_cons.1 ht
    · exact passes_compare_iff
    · exact ih ht

/-- The second operand is evaluated again where the conjunction comes to it, with the same
outcome. -/
theorem eval_compare_cons_cons (first : Expr) (link link' : Comparison × Expr)
    (links : List (Comparison × Expr)) :
    (Expr.compare first (link :: link' :: links)).eval =
      (Expr.and (.compare first [link]) (.compare link.2 (link' :: links))).eval := by
  obtain ⟨op, second⟩ := link
  have hchain : ∀ e ls, (Expr.compare e ls).eval =
      e.eval >>= fun v => evalLinks v ls >>= fun b => .ok (.bool b) := fun e ls => by
    rw [Expr.eval]
    rfl
  have hlink : ∀ v ls, evalLinks v ((op, second) :: ls) =
      second.eval >>= fun w => compare op v w >>= fun b =>
        if b then evalLinks w ls else .ok false := fun v ls => by
    rw [evalLinks]
    rfl
  have hand : ∀ l r, (Expr.and l r).eval =
      l.eval >>= fun v => if v.truthy then r.eval else .ok v := fun l r => by
    rw [Expr.eval]
    rfl
  rw [hand, hchain first, hchain first, hchain second]
  cases first.eval with
  | error fault => rfl
  | ok v =>
    show (evalLinks v _ >>= _) = ((evalLinks v _ >>= _) >>= _)
    rw [hlink, hlink]
    cases second.eval with
    | error fault => rfl
    | ok w =>
      show ((compare op v w >>= _) >>= _) = (((compare op v w >>= _) >>= _) >>= _)
      cases compare op v w with
      | error fault => rfl
      | ok holds =>
        cases holds
        all_goals rw [evalLinks]; rfl

/-! ## Conjunctions -/

/-- The conjunction that is bracketed from the right has the outcome of the chain. -/
theorem exists_bracketed_linkTests (first : Expr) (link : Comparison × Expr)
    (links : List (Comparison × Expr)) :
    ∃ e, Bracketed .and (linkTests first (link :: links)) e ∧
      e.eval = (Expr.compare first (link :: links)).eval := by
  induction links generalizing first link with
  | nil => exact ⟨_, .single _, rfl⟩
  | cons link' links ih =>
    obtain ⟨e, he, heval⟩ := ih link.2 link'
    refine ⟨.and (.compare first [link]) e, .join (.single _) he, ?_⟩
    rw [eval_compare_cons_cons, Expr.eval, heval, Expr.eval]

theorem Bracketed.eval_eq_compare {e : Expr}
    (h : Bracketed .and (linkTests first (link :: links)) e) :
    e.eval = (Expr.compare first (link :: links)).eval := by
  obtain ⟨e', he', heval⟩ := exists_bracketed_linkTests first link links
  rw [h.eval_eq he', heval]

/-- The links after one that does not hold make no difference. -/
theorem eval_compare_of_not_holds {held : List (Comparison × Expr)}
    (hheld : ∀ t ∈ linkTests first held, t.eval = .ok (.bool true))
    (hlink : (Expr.compare (lastOperand first held) [link]).eval ≠ .ok (.bool true))
    (rest : List (Comparison × Expr)) :
    (Expr.compare first (held ++ link :: rest)).eval =
      (Expr.compare (lastOperand first held) [link]).eval := by
  have hstop : Connective.and.StopsAt (linkTests first (held ++ link :: rest))
      (.compare (lastOperand first held) [link]) := by
    refine ⟨_, _, linkTests_append_cons first held link rest, fun t ht => ?_, fun hp => ?_⟩
    · exact (passes_of_mem_linkTests ht).2 (hheld t ht)
    · exact absurd (passes_compare_iff.1 hp) hlink
  obtain ⟨l, ls, hls⟩ : ∃ l ls, held ++ link :: rest = l :: ls :=
    List.exists_cons_of_ne_nil (by simp)
  rw [hls] at hstop ⊢
  rw [← (bracketed_leftNested .and _ _).eval_eq_compare,
    (bracketed_leftNested .and _ _).eval_of_stopsAt hstop]

/-! ## Chains as they are read -/

/-- An operand with the operator before it. -/
structure Comparand where
  sign : List Token
  op : Comparison
  compares : Compares sign op
  operand : Phrase (.chain .sum)

namespace Comparand

def tokens (c : Comparand) : List Token := c.sign ++ c.operand.tokens

def toLink (c : Comparand) : Comparison × Expr := (c.op, c.operand.expr)

def levels : List Comparand → Nat
  | [] => 0
  | c :: cs => max c.operand.cost (levels cs)

theorem compared (cs : List Comparand) :
    Compared (cs.flatMap tokens) (cs.map toLink) (levels cs) := by
  induction cs with
  | nil => exact .nil
  | cons c cs ih =>
    rw [List.flatMap_cons, tokens, List.append_assoc]
    exact .cons c.compares c.operand.derives ih

end Comparand

/-- A comparison chain. -/
def Phrase.compare (p : Phrase (.chain .sum)) (c : Comparand) (cs : List Comparand) :
    Phrase .comparison where
  tokens := p.tokens ++ (c :: cs).flatMap Comparand.tokens
  expr := .compare p.expr ((c :: cs).map Comparand.toLink)
  cost := max p.cost (Comparand.levels (c :: cs))
  derives := .compare p.derives (Comparand.compared (c :: cs)) (List.cons_ne_nil _ _)

/-- A comparison between parentheses. -/
def Phrase.test (p : Phrase (.chain .sum)) (c : Comparand) : Phrase Connective.and.chain.operand where
  tokens := .lparen :: ((p.compare c []).tokens ++ [.rparen])
  expr := (p.compare c []).expr
  cost := 1 + (p.compare c []).cost
  derives := (Derives.parens (p.compare c []).derives.expression).mono (Nat.zero_le _)

/-- The comparisons of neighbouring operands, each between parentheses. -/
def Phrase.tests : Phrase (.chain .sum) → List Comparand → List (Phrase Connective.and.chain.operand)
  | _, [] => []
  | p, c :: cs => p.test c :: c.operand.tests cs

theorem Phrase.map_expr_tests (p : Phrase (.chain .sum)) (cs : List Comparand) :
    (p.tests cs).map Phrase.expr = linkTests p.expr (cs.map Comparand.toLink) := by
  induction cs generalizing p with
  | nil => rfl
  | cons c cs ih =>
    rw [tests, List.map_cons, ih]
    rfl

/-- The conjunction opens the levels that the chain opens, and more. -/
theorem Phrase.cost_compare_le (p : Phrase (.chain .sum)) (c : Comparand) (cs : List Comparand)
    (i : Nat) : (p.compare c cs).cost ≤ Phrase.levels i (p.tests (c :: cs)) := by
  induction cs generalizing p c i with
  | nil =>
    simp only [tests, Phrase.levels, test]
    omega
  | cons c' cs ih =>
    have hrest := ih c.operand c' (i + 1)
    simp only [tests, Phrase.levels, test, compare, Comparand.levels] at hrest ⊢
    omega

theorem parse_compare {source : String} {segs : List Segment} (p : Phrase (.chain .sum))
    (c : Comparand) (cs : List Comparand) (hs : Cuts source.toList segs)
    (hts : tokensOf segs = (p.compare c cs).tokens) (hcost : (p.compare c cs).cost ≤ maxDepth) :
    parse source = .ok (p.compare c cs).expr := by
  have hd := (p.compare c cs).derives.expression
  rw [← hts] at hd
  exact (parse_eq_ok_iff_derives hs).2 ⟨_, hcost, hd⟩

theorem evaluate_congr {source source' : String} {e e' : Expr} (h : parse source = .ok e)
    (h' : parse source' = .ok e') (he : e.eval = e'.eval) :
    (evaluate source).mapError Error.fault = (evaluate source').mapError Error.fault := by
  have hvalue : ∀ {s : String} {e : Expr}, parse s = .ok e →
      (evaluate s).mapError Error.fault = e.eval := by
    intro s e hs
    have hbind : (Except.ok e >>= Expr.eval) = e.eval := rfl
    rw [evaluate, hs, hbind]
    cases e.eval <;> rfl
  rw [hvalue h, hvalue h', he]

/-- **A comparison chain is the conjunction of its links.** Value or failure, it has the outcome of
the conjunction. It stops at the first link that does not hold: the outcome is that of the link, and
what is compared after it makes no difference. So the text of a chain and that of the conjunction,
each comparison between parentheses, have the same outcome if the conjunction does not open too many
levels; the chain opens fewer. -/
theorem comparison_chain_eq_conjunction :
    (∀ first link links, (Expr.compare first (link :: links)).eval =
      (Connective.and.leftNested (.compare first [link]) (linkTests link.2 links)).eval) ∧
    (∀ first links v, (Expr.compare first links).eval = .ok v → ∃ b, v = .bool b) ∧
    (∀ first held link, (∀ t ∈ linkTests first held, t.eval = .ok (.bool true)) →
      (Expr.compare (lastOperand first held) [link]).eval ≠ .ok (.bool true) →
      ∀ rest, (Expr.compare first (held ++ link :: rest)).eval =
        (Expr.compare (lastOperand first held) [link]).eval) ∧
    ∀ source source' segs segs' (p : Phrase (.chain .sum)) c cs,
      Cuts source.toList segs → tokensOf segs = (p.compare c cs).tokens →
      Cuts source'.toList segs' →
      tokensOf segs' = Connective.and.written (p.test c) (c.operand.tests cs) →
      Phrase.levels 0 (p.tests (c :: cs)) ≤ maxDepth →
      parse source = .ok (.compare p.expr ((c :: cs).map Comparand.toLink)) ∧
        (evaluate source).mapError Error.fault = (evaluate source').mapError Error.fault := by
  have hconjunction : ∀ first link links, (Expr.compare first (link :: links)).eval =
      (Connective.and.leftNested (.compare first [link]) (linkTests link.2 links)).eval :=
    fun first link links => (bracketed_leftNested .and _ _).eval_eq_compare.symm
  refine ⟨hconjunction, fun first links v => eval_compare_eq_ok, ?_, ?_⟩
  · intro first held link hheld hlink rest
    exact eval_compare_of_not_holds hheld hlink rest
  · intro source source' segs segs' p c cs hs hts hs' hts' hlevels
    have hchain := parse_compare p c cs hs hts ((p.cost_compare_le c cs 0).trans hlevels)
    have hparse := parse_leftNested hs' hts' hlevels
    rw [Phrase.map_expr_tests] at hparse
    exact ⟨hchain, evaluate_congr hchain hparse (hconjunction _ _ _)⟩

/-- A placeholder after a link that does not hold does no harm. -/
theorem comparison_chain_eq_conjunction_stops :
    evaluate "1==2==$X" = .ok (.bool false) ∧
      (evaluate "1==2==$X").mapError Error.fault =
        (evaluate "(1==2)and(2==$X)").mapError Error.fault := by
  obtain ⟨-, -, hstop, htext⟩ := comparison_chain_eq_conjunction
  have hs : Cuts "1==2==$X".toList [.token (.int 1) ['1'], .token .eq ['=', '='],
      .token (.int 2) ['2'], .token .eq ['=', '='], .token (.var "X") ['$', 'X']] := by
    refine .token (t := ⟨.int 1, [], "==2==$X".toList⟩) rfl rfl ?_
    refine .token (t := ⟨.eq, ['='], "2==$X".toList⟩) rfl rfl ?_
    refine .token (t := ⟨.int 2, [], "==$X".toList⟩) rfl rfl ?_
    refine .token (t := ⟨.eq, ['='], "$X".toList⟩) rfl rfl ?_
    exact .token (t := ⟨.var "X", ['X'], []⟩) rfl rfl .nil
  have hs' : Cuts "(1==2)and(2==$X)".toList [.token .lparen ['('], .token (.int 1) ['1'],
      .token .eq ['=', '='], .token (.int 2) ['2'], .token .rparen [')'],
      .token .and ['a', 'n', 'd'], .token .lparen ['('], .token (.int 2) ['2'],
      .token .eq ['=', '='], .token (.var "X") ['$', 'X'], .token .rparen [')']] := by
    refine .token (t := ⟨.lparen, [], "1==2)and(2==$X)".toList⟩) rfl rfl ?_
    refine .token (t := ⟨.int 1, [], "==2)and(2==$X)".toList⟩) rfl rfl ?_
    refine .token (t := ⟨.eq, ['='], "2)and(2==$X)".toList⟩) rfl rfl ?_
    refine .token (t := ⟨.int 2, [], ")and(2==$X)".toList⟩) rfl rfl ?_
    refine .token (t := ⟨.rparen, [], "and(2==$X)".toList⟩) rfl rfl ?_
    refine .token (t := ⟨.and, ['n', 'd'], "(2==$X)".toList⟩) rfl rfl ?_
    refine .token (t := ⟨.lparen, [], "2==$X)".toList⟩) rfl rfl ?_
    refine .token (t := ⟨.int 2, [], "==$X)".toList⟩) rfl rfl ?_
    refine .token (t := ⟨.eq, ['='], "$X)".toList⟩) rfl rfl ?_
    refine .token (t := ⟨.var "X", ['X'], [')']⟩) rfl rfl ?_
    exact .token (t := ⟨.rparen, [], []⟩) rfl rfl .nil
  obtain ⟨hparse, hsame⟩ := htext _ _ _ _ ((Makes.int 1).phrase _)
    ⟨[.eq], .eq, .eq, (Makes.int 2).phrase _⟩ [⟨[.eq], .eq, .eq, (Makes.var "X").phrase _⟩]
    hs rfl hs' rfl (by decide)
  have hfirst : (Expr.compare (.literal (.int 1)) [(.eq, .literal (.int 2))]).eval =
      .ok (.bool false) := by
    simp only [Expr.eval, evalLinks]
    rfl
  have hrest := hstop (.literal (.int 1)) [] (.eq, .literal (.int 2)) (by simp [linkTests])
    (by rw [lastOperand, hfirst]; simp) [(.eq, .var "X")]
  exact ⟨evaluate_eq_ok_iff.2 ⟨_, hparse, hrest.trans hfirst⟩, hsame⟩

end GuardTree.Formula
