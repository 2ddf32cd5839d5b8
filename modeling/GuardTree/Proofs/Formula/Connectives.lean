import GuardTree.Formula.Eval
import GuardTree.Proofs.Formula.GuardShape

/-! # Chains of `and` and of `or`

A connective evaluates its operands from the left and goes past those that leave the decision to the
ones after them: the true ones for `and`, the others for `or`. The outcome is that of the operand at
which it stops, whatever stands after that one and however the operands are bracketed
(`connectives_select`).

* `Connective.StopsAt`: the operand that decides.
* `Bracketed`: the trees that join operands in a given order. `Connective.leftNested` is the one that
  is read from a chain without brackets.
* `Phrase`: tokens with the expression they derive at a level of the grammar.
-/

namespace GuardTree.Formula

set_option autoImplicit false

/-- The operators whose operands are evaluated only as far as needed. -/
inductive Connective
  | and
  | or

namespace Connective

def token : Connective → Token
  | .and => .and
  | .or => .or

def chain : Connective → Chain
  | .and => .and
  | .or => .or

def join : Connective → Expr → Expr → Expr
  | .and => .and
  | .or => .or

/-- Whether a value leaves the decision to the operands after it. -/
def goesPast : Connective → Value → Bool
  | .and, v => v.truthy
  | .or, v => !v.truthy

/-- The operand has a value, and one that leaves the decision to the operands after it. -/
def Passes (k : Connective) (e : Expr) : Prop :=
  ∃ v, e.eval = .ok v ∧ k.goesPast v = true

/-- The operand that decides: all before it are passed, and it is not, unless it is the last one. -/
def StopsAt (k : Connective) (es : List Expr) (e : Expr) : Prop :=
  ∃ before after, es = before ++ e :: after ∧ (∀ x ∈ before, k.Passes x) ∧ (k.Passes e → after = [])

/-- The operands joined one after the other, from the left. -/
def leftNested (k : Connective) (e : Expr) (es : List Expr) : Expr := es.foldl k.join e

end Connective

/-- `Bracketed k es e`: in `e` the operands `es` are joined by `k`, in this order. -/
inductive Bracketed (k : Connective) : List Expr → Expr → Prop
  | single (e : Expr) : Bracketed k [e] e
  | join {es fs : List Expr} {e f : Expr} (h : Bracketed k es e) (h' : Bracketed k fs f) :
      Bracketed k (es ++ fs) (k.join e f)

variable {k : Connective} {es fs : List Expr} {e e' f l r : Expr}

/-! ## The operand that decides -/

theorem passes_congr (h : e.eval = e'.eval) : k.Passes e ↔ k.Passes e' := by
  rw [Connective.Passes, Connective.Passes, h]

theorem not_passes_of_error {fault : Fault} (h : e.eval = .error fault) : ¬ k.Passes e := by
  rintro ⟨v, hv, -⟩
  rw [h] at hv
  cases hv

theorem eval_join_of_passes (h : k.Passes l) : (k.join l r).eval = r.eval := by
  obtain ⟨v, hv, hpast⟩ := h
  cases k with
  | and =>
    rw [Connective.join, Expr.eval, hv]
    exact if_pos hpast
  | or =>
    rw [Connective.join, Expr.eval, hv]
    exact if_neg (by simpa [Connective.goesPast] using hpast)

theorem eval_join_of_not_passes (h : ¬ k.Passes l) : (k.join l r).eval = l.eval := by
  cases hl : l.eval with
  | error fault =>
    cases k
    all_goals
      rw [Connective.join, Expr.eval, hl]
      rfl
  | ok v =>
    have hstop : ¬ k.goesPast v = true := fun hpast => h ⟨v, hl, hpast⟩
    cases k with
    | and =>
      rw [Connective.join, Expr.eval, hl]
      exact if_neg hstop
    | or =>
      rw [Connective.join, Expr.eval, hl]
      exact if_pos (by simpa [Connective.goesPast] using hstop)

/-- No more than one operand decides. -/
theorem Connective.StopsAt.unique (h : k.StopsAt es e) (h' : k.StopsAt es e') : e = e' := by
  obtain ⟨before, after, rfl, hbefore, hlast⟩ := h
  obtain ⟨before', after', heq, hbefore', hlast'⟩ := h'
  induction before generalizing before' with
  | nil =>
    cases before' with
    | nil => exact (List.cons.inj heq).1
    | cons x before' =>
      obtain ⟨rfl, rfl⟩ := List.cons.inj heq
      have hnil := hlast (hbefore' _ List.mem_cons_self)
      simp at hnil
  | cons x before ih =>
    cases before' with
    | nil =>
      obtain ⟨rfl, rfl⟩ := List.cons.inj heq
      have hnil := hlast' (hbefore _ List.mem_cons_self)
      simp at hnil
    | cons x' before' =>
      obtain ⟨-, heq⟩ := List.cons.inj heq
      exact ih (fun y hy => hbefore y (List.mem_cons_of_mem _ hy)) before' heq
        fun y hy => hbefore' y (List.mem_cons_of_mem _ hy)

/-- Where all operands are passed, the last one decides. -/
theorem Connective.StopsAt.forall_passes (h : k.StopsAt es e) (he : k.Passes e) :
    ∀ x ∈ es, k.Passes x := by
  obtain ⟨before, after, rfl, hbefore, hlast⟩ := h
  obtain rfl := hlast he
  intro x hx
  obtain hx | hx := List.mem_append.1 hx
  · exact hbefore x hx
  · rwa [List.mem_singleton.1 hx]

theorem Connective.StopsAt.append_right (h : k.StopsAt es e) (he : ¬ k.Passes e)
    (fs : List Expr) : k.StopsAt (es ++ fs) e := by
  obtain ⟨before, after, rfl, hbefore, -⟩ := h
  refine ⟨before, after ++ fs, ?_, hbefore, fun hp => absurd hp he⟩
  rw [List.append_assoc, List.cons_append]

theorem Connective.StopsAt.append_left (h : k.StopsAt fs f) (hes : ∀ x ∈ es, k.Passes x) :
    k.StopsAt (es ++ fs) f := by
  obtain ⟨before, after, rfl, hbefore, hlast⟩ := h
  refine ⟨es ++ before, after, (List.append_assoc ..).symm, ?_, hlast⟩
  intro x hx
  obtain hx | hx := List.mem_append.1 hx
  · exact hes x hx
  · exact hbefore x hx

/-! ## Bracketings -/

/-- A bracketing has the outcome of one of its operands, the one that decides. -/
theorem Bracketed.exists_stopsAt (h : Bracketed k es e) :
    ∃ e', k.StopsAt es e' ∧ e.eval = e'.eval := by
  induction h with
  | single e => exact ⟨e, ⟨[], [], rfl, by simp, fun _ => rfl⟩, rfl⟩
  | @join es fs e f _ _ ih ih' =>
    obtain ⟨e₁, hstop, heval⟩ := ih
    by_cases hp : k.Passes e₁
    · obtain ⟨f₁, hstop', heval'⟩ := ih'
      refine ⟨f₁, hstop'.append_left (hstop.forall_passes hp), ?_⟩
      rw [eval_join_of_passes ((passes_congr heval).2 hp), heval']
    · refine ⟨e₁, hstop.append_right hp fs, ?_⟩
      rw [eval_join_of_not_passes ((passes_congr heval).not.2 hp), heval]

theorem Bracketed.eval_of_stopsAt (h : Bracketed k es e) (hstop : k.StopsAt es e') :
    e.eval = e'.eval := by
  obtain ⟨e₁, hstop₁, heval⟩ := h.exists_stopsAt
  rw [heval, hstop₁.unique hstop]

theorem Bracketed.eval_eq (h : Bracketed k es e) (h' : Bracketed k es e') : e.eval = e'.eval := by
  obtain ⟨e₁, hstop, heval⟩ := h'.exists_stopsAt
  rw [heval, h.eval_of_stopsAt hstop]

theorem Bracketed.eval_eq_iff (h : Bracketed k es e) {x : Except Fault Value} :
    e.eval = x ↔ ∃ e', k.StopsAt es e' ∧ e'.eval = x := by
  constructor
  · rintro rfl
    obtain ⟨e', hstop, heval⟩ := h.exists_stopsAt
    exact ⟨e', hstop, heval.symm⟩
  · rintro ⟨e', hstop, rfl⟩
    exact h.eval_of_stopsAt hstop

/-- An operand that fails decides as soon as it is come to. -/
theorem Bracketed.eval_eq_error_iff (h : Bracketed k es e) {fault : Fault} :
    e.eval = .error fault ↔ ∃ before e' after, es = before ++ e' :: after ∧
      (∀ x ∈ before, k.Passes x) ∧ e'.eval = .error fault := by
  rw [h.eval_eq_iff]
  constructor
  · rintro ⟨e', ⟨before, after, hes, hbefore, -⟩, he'⟩
    exact ⟨before, e', after, hes, hbefore, he'⟩
  · rintro ⟨before, e', after, hes, hbefore, he'⟩
    exact ⟨e', ⟨before, after, hes, hbefore, fun hp => absurd hp (not_passes_of_error he')⟩, he'⟩

theorem Bracketed.eval_of_not_passes {before after : List Expr}
    (h : Bracketed k (before ++ e' :: after) e) (hbefore : ∀ x ∈ before, k.Passes x)
    (he' : ¬ k.Passes e') : e.eval = e'.eval :=
  h.eval_of_stopsAt ⟨before, after, rfl, hbefore, fun hp => absurd hp he'⟩

theorem Bracketed.foldl (h : Bracketed k es e) (fs : List Expr) :
    Bracketed k (es ++ fs) (fs.foldl k.join e) := by
  induction fs generalizing es e with
  | nil => rwa [List.append_nil]
  | cons f fs ih =>
    have hnext := ih (h.join (.single f))
    rwa [List.append_assoc, List.singleton_append] at hnext

theorem bracketed_leftNested (k : Connective) (e : Expr) (es : List Expr) :
    Bracketed k (e :: es) (k.leftNested e es) :=
  Bracketed.foldl (.single e) es

/-! ## Chains as they are read -/

/-- Tokens with the expression that they derive at level `l`, and what it costs. -/
structure Phrase (l : Level) where
  tokens : List Token
  expr : Expr
  cost : Nat
  derives : Derives l tokens expr cost

/-- A token that is an operand by itself. -/
def Makes.phrase {t : Token} (h : Makes t e) (l : Level) : Phrase l := ⟨[t], e, 0, h.derives l⟩

/-- The levels that are opened by operands of which the first is the `i`-th one: each is read with a
level open for every operator before it. -/
def Phrase.levels {l : Level} (i : Nat) : List (Phrase l) → Nat
  | [] => 0
  | p :: ps => max (i + p.cost) (Phrase.levels (i + 1) ps)

/-- The tokens of a chain without brackets. -/
def Connective.written (k : Connective) (p : Phrase k.chain.operand)
    (ps : List (Phrase k.chain.operand)) : List Token :=
  p.tokens ++ ps.flatMap fun q => k.token :: q.tokens

theorem joins_chain_iff {t : Token} {e e' e'' : Expr} :
    Joins k.chain t e e' e'' ↔ t = k.token ∧ e'' = k.join e e' := by
  cases k
  all_goals
    constructor
    · intro h
      cases h
      exact ⟨rfl, rfl⟩
    · rintro ⟨rfl, rfl⟩
      constructor

theorem Phrase.levels_append {l : Level} (i : Nat) (ps qs : List (Phrase l)) :
    Phrase.levels i (ps ++ qs) = max (Phrase.levels i ps) (Phrase.levels (i + ps.length) qs) := by
  induction ps generalizing i with
  | nil => simp [Phrase.levels]
  | cons p ps ih =>
    rw [List.cons_append, Phrase.levels, Phrase.levels, ih, Nat.max_assoc, List.length_cons,
      Nat.add_right_comm, Nat.add_assoc]

theorem Connective.written_append_singleton (k : Connective) (p q : Phrase k.chain.operand)
    (ps : List (Phrase k.chain.operand)) :
    k.written p (ps ++ [q]) = k.written p ps ++ k.token :: q.tokens := by
  simp [Connective.written]

theorem Connective.leftNested_append_singleton (k : Connective) (e f : Expr) (es : List Expr) :
    k.leftNested e (es ++ [f]) = k.join (k.leftNested e es) f := by
  rw [Connective.leftNested, List.foldl_append]
  rfl

theorem chained_leftNested (k : Connective) (p : Phrase k.chain.operand)
    (ps : List (Phrase k.chain.operand)) :
    Chained k.chain (k.written p ps) (k.leftNested p.expr (ps.map Phrase.expr)) ps.length
      (Phrase.levels 0 (p :: ps)) := by
  induction ps using List.reverseRecOn with
  | nil =>
    have hfirst : Chained k.chain p.tokens p.expr 0 p.cost :=
      .first (Chain.over_iff.2 rfl) p.derives
    simpa [Connective.written, Connective.leftNested, Phrase.levels] using hfirst
  | append_singleton ps q ih =>
    have hlink := Chained.link (Chain.over_iff.2 rfl) ih (joins_chain_iff.2 ⟨rfl, rfl⟩) q.derives
    rw [k.written_append_singleton, List.map_append, List.map_singleton,
      k.leftNested_append_singleton, List.length_append, List.length_singleton, ← List.cons_append,
      Phrase.levels_append]
    simpa [Phrase.levels] using hlink

theorem Chained.exists_phrases {c : Chain} {ts : List Token} {e : Expr} {i n : Nat} :
    Chained c ts e i n → c = k.chain → ∃ (p : Phrase k.chain.operand) (ps : _),
      ts = k.written p ps ∧ e = k.leftNested p.expr (ps.map Phrase.expr) ∧ i = ps.length ∧
        n = Phrase.levels 0 (p :: ps)
  | .first hk h, hc => by
    obtain rfl := hc
    obtain rfl := Chain.over_iff.1 hk
    refine ⟨⟨_, _, _, h⟩, [], ?_, rfl, rfl, ?_⟩
    · simp [Connective.written]
    · simp [Phrase.levels]
  | .link hk h hj h', hc => by
    obtain rfl := hc
    obtain rfl := Chain.over_iff.1 hk
    obtain ⟨rfl, rfl⟩ := joins_chain_iff.1 hj
    obtain ⟨p, ps, rfl, rfl, rfl, rfl⟩ := h.exists_phrases rfl
    refine ⟨p, ps ++ [⟨_, _, _, h'⟩], ?_, ?_, ?_, ?_⟩
    · rw [k.written_append_singleton]
    · rw [List.map_append, List.map_singleton, k.leftNested_append_singleton]
    · rw [List.length_append, List.length_singleton]
    · rw [← List.cons_append, Phrase.levels_append]
      simp [Phrase.levels]

/-- The chains of the grammar are its phrases with connectives between them, joined from the left. -/
theorem derives_chain_iff {ts : List Token} {n : Nat} :
    Derives (.chain k.chain) ts e n ↔ ∃ (p : Phrase k.chain.operand) (ps : _),
      ts = k.written p ps ∧ e = k.leftNested p.expr (ps.map Phrase.expr) ∧
        n = Phrase.levels 0 (p :: ps) := by
  constructor
  · intro h
    cases h with
    | chain h =>
      obtain ⟨p, ps, hts, he, -, hn⟩ := h.exists_phrases rfl
      exact ⟨p, ps, hts, he, hn⟩
  · rintro ⟨p, ps, rfl, rfl, rfl⟩
    exact .chain (chained_leftNested k p ps)

/-- A chain without brackets is read from the left, if it does not open too many levels. -/
theorem parse_leftNested {source : String} {segs : List Segment} {p : Phrase k.chain.operand}
    {ps : List (Phrase k.chain.operand)} (hs : Cuts source.toList segs)
    (hts : tokensOf segs = k.written p ps) (hlevels : Phrase.levels 0 (p :: ps) ≤ maxDepth) :
    parse source = .ok (k.leftNested p.expr (ps.map Phrase.expr)) := by
  have hd := (Derives.chain (chained_leftNested k p ps)).expression
  rw [← hts] at hd
  exact (parse_eq_ok_iff_derives hs).2 ⟨_, hlevels, hd⟩

/-- **A chain of `and` or of `or` selects an operand.** However its operands are bracketed, it has
the outcome of the first one that is not passed, and of the last one if all before that are passed:
true values are passed by `and`, the others by `or`. It fails exactly if an operand fails and all
before it are passed. What stands after an operand that is not passed makes no difference. The
chains that are read are bracketed from the left. -/
theorem connectives_select (k : Connective) :
    (∀ es e, Bracketed k es e →
      (∀ v, e.eval = .ok v ↔ ∃ e', k.StopsAt es e' ∧ e'.eval = .ok v) ∧
      (∀ fault, e.eval = .error fault ↔ ∃ before e' after, es = before ++ e' :: after ∧
        (∀ x ∈ before, k.Passes x) ∧ e'.eval = .error fault) ∧
      ∀ f, Bracketed k es f → f.eval = e.eval) ∧
    (∀ before e', (∀ x ∈ before, k.Passes x) → ¬ k.Passes e' →
      ∀ after e, Bracketed k (before ++ e' :: after) e → e.eval = e'.eval) ∧
    (∀ e es, Bracketed k (e :: es) (k.leftNested e es)) ∧
    (∀ ts e n, Derives (.chain k.chain) ts e n ↔ ∃ (p : Phrase k.chain.operand) (ps : _),
      ts = k.written p ps ∧ e = k.leftNested p.expr (ps.map Phrase.expr) ∧
        n = Phrase.levels 0 (p :: ps)) ∧
    ∀ source segs (p : Phrase k.chain.operand) ps, Cuts source.toList segs →
      tokensOf segs = k.written p ps → Phrase.levels 0 (p :: ps) ≤ maxDepth →
      parse source = .ok (k.leftNested p.expr (ps.map Phrase.expr)) := by
  refine ⟨fun es e h => ?_, ?_, bracketed_leftNested k, fun ts e n => derives_chain_iff, ?_⟩
  · exact ⟨fun v => h.eval_eq_iff, fun fault => h.eval_eq_error_iff, fun f h' => h'.eval_eq h⟩
  · intro before e' hbefore he' after e h
    exact h.eval_of_not_passes hbefore he'
  · intro source segs p ps hs hts hlevels
    exact parse_leftNested hs hts hlevels

/-- The value of `or` is that of an operand, and not its truth. -/
theorem connectives_select_or :
    ∃ e, parse "0 or 'x'" = .ok e ∧ e.eval = .ok (.str "x") := by
  obtain ⟨hselect, -, hbracketed, -, hparse⟩ := connectives_select .or
  have hs : Cuts "0 or 'x'".toList [.token (.int 0) ['0'], .space ' ', .token .or ['o', 'r'],
      .space ' ', .token (.str "x") ['\x27', 'x', '\x27']] := by
    refine .token (t := ⟨.int 0, [], " or 'x'".toList⟩) rfl rfl (.space rfl ?_)
    refine .token (t := ⟨.or, ['r'], " 'x'".toList⟩) rfl rfl (.space rfl ?_)
    exact .token (t := ⟨.str "x", ['x', '\x27'], []⟩) rfl rfl .nil
  have hpasses : Connective.or.Passes (.literal (.int 0)) := ⟨.int 0, by rw [Expr.eval], rfl⟩
  have hstop : Connective.or.StopsAt [.literal (.int 0), .literal (.str "x")]
      (.literal (.str "x")) := ⟨[_], [], rfl, by simpa using hpasses, fun _ => rfl⟩
  refine ⟨_, hparse _ _ ((Makes.int 0).phrase _) [(Makes.str "x").phrase _] hs rfl (by decide), ?_⟩
  exact ((hselect _ _ (hbracketed _ _)).1 _).2 ⟨_, hstop, by rw [Expr.eval]⟩

end GuardTree.Formula
