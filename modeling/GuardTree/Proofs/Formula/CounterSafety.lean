import GuardTree.Proofs.Formula.Counters
import GuardTree.Proofs.Formula.Equations
import GuardTree.Proofs.Formula.Grammar

/-! # The parser's counters stay in range

The parser that counts (`Counting.expression`) does what `parseTokens` does, and its counters are in
range at every moment of every call.

* `Mirrors`: a run beside the result of a function of the parser: the same result, sound calls, and
  counters that are not before the start of the run. Runs are put together by `Mirrors.bind` and by
  one lemma for each step.
* `Mirrored`: all functions mirror the parser's, on a budget. A call costs one, and ten are enough
  for all calls at one position, since each is of a tighter level than the one that makes it.
-/

namespace GuardTree.Formula

set_option autoImplicit false

/-! ## What is safe -/

/-- The counters `c` are in range during a call that starts at `start`. -/
structure Counters.Inside (ts : List Lexeme) (start c : Counters) : Prop where
  le_position : start.position ≤ c.position
  position_le : c.position ≤ ts.length
  depth_le : c.depth ≤ maxDepth + 1

/-- A call whose counters are in range all the time, and which, if it returns, has passed a token
and closed all levels that it has opened. -/
structure Visit.Sound (ts : List Lexeme) (v : Visit) : Prop where
  inside : ∀ c ∈ v.start :: v.passed, v.start.Inside ts c
  returned : ∀ c, v.ending = .returned () c →
    v.start.position < c.position ∧ c.depth = v.start.depth
  not_underflow : v.ending ≠ .underflow
  finished : v.ending ≠ .unfinished

/-- What a run gives: what it returns, or the tokens from where it halted and why. -/
def Ending.result? {α : Type} (ts : List Lexeme) : Ending α → Option (Except Halt α)
  | .returned a _ => some (.ok a)
  | .halted c problem => some (.error ⟨ts.drop c.position, problem⟩)
  | .underflow => none
  | .unfinished => none

/-! ## Runs beside the parser's functions -/

/-- The tokens that are left and the levels that are open. -/
def Counters.cursor (ts : List Lexeme) (c : Counters) : Cursor := ⟨ts.drop c.position, c.depth⟩

/-- An ending that is the result of a function of the parser, and counters with `post` if it
returns. -/
inductive Ends {α : Type} (ts : List Lexeme) (post : Counters → Prop) :
    Ending α → Except Halt (α × Cursor) → Prop
  | returned {a : α} {c : Counters} (hc : c.position ≤ ts.length) (h : post c) :
      Ends ts post (.returned a c) (.ok (a, c.cursor ts))
  | halted {c : Counters} {problem : Problem} :
      Ends ts post (.halted c problem) (.error ⟨ts.drop c.position, problem⟩)

/-- A run from `c` that does what a function of the parser does, with sound calls, counters in range
and `post` at its return. -/
structure Mirrors {α : Type} (ts : List Lexeme) (c : Counters) (post : Counters → Prop)
    (x : Counted α) (y : Except Halt (α × Cursor)) : Prop where
  inside : ∀ c' ∈ x.passed, c.Inside ts c'
  sound : ∀ v ∈ x.visits, v.Sound ts
  ends : Ends ts post x.ending y

variable {α β : Type} {ts : List Lexeme} {c c' : Counters} {post post' : Counters → Prop}
  {x : Counted α} {y : Except Halt (α × Cursor)} {z : Except Halt (β × Cursor)}
  {p d n budget : Nat}

theorem Counters.Inside.trans {c₁ c₂ : Counters} (h : c.position ≤ c₁.position)
    (h' : c₁.Inside ts c₂) : c.Inside ts c₂ :=
  ⟨Nat.le_trans h h'.le_position, h'.position_le, h'.depth_le⟩

/-- A token has been passed since position `p`, and `d` levels are open. -/
structure Further (p d : Nat) (c : Counters) : Prop where
  lt_position : p < c.position
  depth_eq : c.depth = d

/-- Position `p` or a later one has been reached, and `d` levels are open. -/
structure NotBefore (p d : Nat) (c : Counters) : Prop where
  le_position : p ≤ c.position
  depth_eq : c.depth = d

theorem Further.notBefore (h : Further p d c) : NotBefore p d c :=
  ⟨Nat.le_of_lt h.lt_position, h.depth_eq⟩

theorem NotBefore.further {p₁ : Nat} (h : NotBefore p₁ d c) (hp : p < p₁) : Further p d c :=
  ⟨Nat.lt_of_lt_of_le hp h.le_position, h.depth_eq⟩

/-! ## Steps -/

namespace Counting

/-- A run that first comes to the counters `c`. -/
def after (c : Counters) (x : Counted α) : Counted α := ⟨c :: x.passed, x.visits, x.ending⟩

variable {f : Unit → Counting α}

theorem pass_bind : (pass n >>= f) ⟨p, d⟩ = after ⟨p + n, d⟩ (f () ⟨p + n, d⟩) := rfl

theorem enter_bind : (enter >>= f) ⟨p, d⟩ = after ⟨p, d + 1⟩
    (if d < maxDepth then f () ⟨p, d + 1⟩ else halt .tooDeep ⟨p, d + 1⟩) := by
  show andThen (enter ⟨p, d⟩) f = _
  rw [enter]
  dsimp only
  split
  case isTrue hd =>
    rw [if_neg (by omega)]
    rfl
  case isFalse hd =>
    rw [if_pos (by omega)]
    rfl

theorem leave_bind : (leave n >>= f) ⟨p, d + n⟩ = after ⟨p, d⟩ (f () ⟨p, d⟩) := by
  show andThen (leave n ⟨p, d + n⟩) f = _
  rw [leave]
  dsimp only
  rw [if_pos (Nat.le_add_left n d), Nat.add_sub_cancel]
  rfl

theorem back_bind : (back >>= f) ⟨p + 1, d⟩ = after ⟨p, d⟩ (f () ⟨p, d⟩) := by
  show andThen (back ⟨p + 1, d⟩) f = _
  rw [back]
  dsimp only
  rw [if_pos (Nat.le_add_left 1 p), Nat.add_sub_cancel]
  rfl

theorem ahead_bind {f : List Lexeme → Counting α} :
    (ahead ts >>= f) ⟨p, d⟩ = f (ts.drop p) ⟨p, d⟩ := rfl

section

variable {r : List Lexeme} {t : Lexeme} {u : Token}

theorem eat_bind_of_eq {f : Bool → Counting α} (hr : ts.drop p = t :: r) (ht : t.token = u) :
    (eat ts u >>= f) ⟨p, d⟩ = after ⟨p + 1, d⟩ (f true ⟨p + 1, d⟩) := by
  show andThen (eat ts u ⟨p, d⟩) f = _
  rw [eat, ahead_bind, hr]
  dsimp only
  rw [if_pos ht]
  rfl

theorem eat_bind_of_ne {f : Bool → Counting α} (ht : ∀ t ∈ (ts.drop p).head?, t.token ≠ u) :
    (eat ts u >>= f) ⟨p, d⟩ = f false ⟨p, d⟩ := by
  show andThen (eat ts u ⟨p, d⟩) f = _
  rw [eat, ahead_bind]
  cases hr : ts.drop p with
  | nil => rfl
  | cons t r =>
    rw [hr] at ht
    dsimp only
    rw [if_neg (ht t rfl)]
    rfl

theorem advance_bind {f : Option Token → Counting α} (hr : ts.drop p = t :: r) :
    (advance ts >>= f) ⟨p, d⟩ = after ⟨p + 1, d⟩ (f (some t.token) ⟨p + 1, d⟩) := by
  show andThen (advance ts ⟨p, d⟩) f = _
  rw [advance, ahead_bind, hr]
  rfl

theorem advance_bind_nil {f : Option Token → Counting α} (hr : ts.drop p = []) :
    (advance ts >>= f) ⟨p, d⟩ = f none ⟨p, d⟩ := by
  show andThen (advance ts ⟨p, d⟩) f = _
  rw [advance, ahead_bind, hr]
  rfl

end

end Counting

namespace Mirrors

theorem pure {a : α} (hp : p ≤ ts.length) (h : post ⟨p, d⟩) :
    Mirrors ts c post ((Pure.pure a : Counting α) ⟨p, d⟩) (.ok (a, ⟨ts.drop p, d⟩)) where
  inside _ hc := nomatch hc
  sound _ hv := nomatch hv
  ends := .returned hp h

theorem halt (problem : Problem) :
    Mirrors ts c post ((Counting.halt problem : Counting α) ⟨p, d⟩)
      (.error ⟨ts.drop p, problem⟩) where
  inside _ hc := nomatch hc
  sound _ hv := nomatch hv
  ends := .halted

theorem bind {m : Counting α} {f : α → Counting β} {g : α × Cursor → Except Halt (β × Cursor)}
    (h : Mirrors ts c post (m c) y) (hle : ∀ c', post c' → c.position ≤ c'.position)
    (hf : ∀ a p d, p ≤ ts.length → post ⟨p, d⟩ →
      Mirrors ts ⟨p, d⟩ post' (f a ⟨p, d⟩) (g (a, ⟨ts.drop p, d⟩))) :
    Mirrors ts c post' ((m >>= f) c) (y >>= g) := by
  show Mirrors ts c post' (Counting.andThen (m c) f) _
  obtain ⟨hinside, hsound, hends⟩ := h
  generalize m c = x at hinside hsound hends
  obtain ⟨passed, visits, ending⟩ := x
  cases hends with
  | halted => exact ⟨hinside, hsound, .halted⟩
  | @returned a c' hc hp =>
    have hnext := hf a c'.position c'.depth hc hp
    refine ⟨?_, ?_, hnext.ends⟩
    · refine List.forall_mem_append.2 ⟨hinside, fun c₂ hm => ?_⟩
      exact (hnext.inside c₂ hm).trans (hle c' hp)
    · exact List.forall_mem_append.2 ⟨hsound, hnext.sound⟩

theorem after (hc : c.Inside ts c') (h : Mirrors ts c post x y) :
    Mirrors ts c post (Counting.after c' x) y where
  inside := List.forall_mem_cons.2 ⟨hc, h.inside⟩
  sound := h.sound
  ends := h.ends

theorem of_le (hle : c.position ≤ c'.position) (h : Mirrors ts c' post x y) :
    Mirrors ts c post x y where
  inside c₂ hm := (h.inside c₂ hm).trans hle
  sound := h.sound
  ends := h.ends

theorem pass (hp : p + n ≤ ts.length) (hd : d ≤ maxDepth)
    (h : Mirrors ts ⟨p + n, d⟩ post x y) :
    Mirrors ts ⟨p, d⟩ post (Counting.after ⟨p + n, d⟩ x) y :=
  after ⟨Nat.le_add_right p n, hp, Nat.le_succ_of_le hd⟩ (h.of_le (Nat.le_add_right p n))

theorem mono (h : Mirrors ts c post x y) (hpost : ∀ c', post c' → post' c') :
    Mirrors ts c post' x y := by
  obtain ⟨hinside, hsound, hends⟩ := h
  refine ⟨hinside, hsound, ?_⟩
  generalize x.ending = ending at hends
  cases hends with
  | halted => exact .halted
  | returned hc hp => exact .returned hc (hpost _ hp)

theorem enter {f : Unit → Counting α} (hp : p ≤ ts.length) (hd : d ≤ maxDepth)
    (h : d < maxDepth → Mirrors ts ⟨p, d + 1⟩ post (f () ⟨p, d + 1⟩) y) :
    Mirrors ts ⟨p, d⟩ post ((Counting.enter >>= f) ⟨p, d⟩)
      (if d < maxDepth then y else .error ⟨ts.drop p, .tooDeep⟩) := by
  rw [Counting.enter_bind]
  have hstay : Mirrors ts ⟨p, d + 1⟩ post
      (if d < maxDepth then f () ⟨p, d + 1⟩ else Counting.halt .tooDeep ⟨p, d + 1⟩)
      (if d < maxDepth then y else .error ⟨ts.drop p, .tooDeep⟩) := by
    split
    case isTrue hlt => exact h hlt
    case isFalse => exact halt .tooDeep
  exact after ⟨Nat.le_refl p, hp, Nat.succ_le_succ hd⟩ (hstay.of_le (Nat.le_refl p))

theorem leave {f : Unit → Counting α} (hp : p ≤ ts.length) (hd : d ≤ maxDepth)
    (h : Mirrors ts ⟨p, d⟩ post (f () ⟨p, d⟩) y) :
    Mirrors ts ⟨p, d + n⟩ post ((Counting.leave n >>= f) ⟨p, d + n⟩) y := by
  rw [Counting.leave_bind]
  exact after ⟨Nat.le_refl p, hp, Nat.le_succ_of_le hd⟩ (h.of_le (Nat.le_refl p))

theorem called {m : Counting α} {routine : Routine} (hp : p ≤ ts.length) (hd : d ≤ maxDepth)
    (h : Mirrors ts ⟨p, d⟩ (Further p d) (m ⟨p, d⟩) y) :
    Mirrors ts ⟨p, d⟩ (Further p d) (Counting.called routine m ⟨p, d⟩) y := by
  obtain ⟨hinside, hsound, hends⟩ := h
  refine ⟨hinside, List.forall_mem_cons.2 ⟨?_, hsound⟩, hends⟩
  have hstart : Counters.Inside ts ⟨p, d⟩ ⟨p, d⟩ := ⟨Nat.le_refl p, hp, Nat.le_succ_of_le hd⟩
  generalize m ⟨p, d⟩ = x at hinside hends
  obtain ⟨passed, visits, ending⟩ := x
  cases hends with
  | halted =>
    refine ⟨List.forall_mem_cons.2 ⟨hstart, hinside⟩, ?_, ?_, ?_⟩
    · rintro c ⟨⟩
    · rintro ⟨⟩
    · rintro ⟨⟩
  | @returned a c' hc hpost =>
    refine ⟨List.forall_mem_cons.2 ⟨hstart, hinside⟩, ?_, ?_, ?_⟩
    · rintro c ⟨⟩
      exact ⟨hpost.lt_position, hpost.depth_eq⟩
    · rintro ⟨⟩
    · rintro ⟨⟩

end Mirrors

/-! ## The parser -/

theorem drop_eq_cons {t : Lexeme} {r : List Lexeme} (hr : ts.drop p = t :: r) :
    p + 1 ≤ ts.length ∧ ts.drop (p + 1) = r := by
  constructor
  · have hlen := congrArg List.length hr
    rw [List.length_drop, List.length_cons] at hlen
    omega
  · rw [← List.drop_drop, hr]
    rfl

theorem head_token_eq_or_ne (ts : List Lexeme) (u : Token) :
    (∃ t r, ts = t :: r ∧ t.token = u) ∨ ∀ t ∈ ts.head?, t.token ≠ u := by
  cases ts with
  | nil => exact .inr fun t ht => nomatch ht
  | cons t r =>
    by_cases ht : t.token = u
    · exact .inl ⟨t, r, rfl, ht⟩
    · exact .inr fun t' ht' => by rwa [← Option.some.inj ht']

theorem Compares.length_eq {os : List Token} {op : Comparison} (h : Compares os op) :
    os.length = op.width := by
  cases h <;> rfl

theorem comparison?_drop {op : Comparison} {r : List Lexeme}
    (h : comparison? (ts.drop p) = some (op, r)) :
    p + op.width ≤ ts.length ∧ ts.drop (p + op.width) = r ∧ 0 < op.width := by
  have hlt := comparison?_length_lt h
  obtain ⟨os, hop, hos⟩ := comparison?_eq_some_iff.1 h
  have hwidth : os.length = op.width := by rw [← hop.length_eq, List.length_map]
  have hlen := congrArg List.length hos
  rw [List.length_drop, List.length_append] at hlen
  rw [hos, List.length_append] at hlt
  refine ⟨by omega, ?_, by omega⟩
  rw [← List.drop_drop, hos, ← hwidth, List.drop_left]

/-- On a budget, the functions over the counters do what the parser's functions do. -/
structure Mirrored (ts : List Lexeme) (budget : Nat) : Prop where
  operand (l : Level) {p d : Nat} (hp : p ≤ ts.length) (hd : d ≤ maxDepth)
    (hb : 10 * (ts.length - p) + l.rank < budget) :
    Mirrors ts ⟨p, d⟩ (Further p d) (Counting.operand ts budget l ⟨p, d⟩)
      (readOperand l ⟨ts.drop p, d⟩)
  links (k : Chain) (lhs : Expr) (i : Nat) {p d : Nat} (hp : p ≤ ts.length)
    (hd : d + i ≤ maxDepth) (hb : 10 * (ts.length - p) < budget) :
    Mirrors ts ⟨p, d + i⟩ (NotBefore p d) (Counting.links ts budget k lhs i ⟨p, d + i⟩)
      (readLinks k lhs i ⟨ts.drop p, d + i⟩)
  comparisons {p d : Nat} (hp : p ≤ ts.length) (hd : d ≤ maxDepth)
    (hb : 10 * (ts.length - p) < budget) :
    Mirrors ts ⟨p, d⟩ (NotBefore p d) (Counting.comparisons ts budget ⟨p, d⟩)
      (readComparisons ⟨ts.drop p, d⟩)
  items {p d : Nat} (hp : p ≤ ts.length) (hd : d ≤ maxDepth)
    (hb : 10 * (ts.length - p) + 8 < budget) :
    Mirrors ts ⟨p, d⟩ (Further p d) (Counting.items ts budget ⟨p, d⟩)
      (readItems ⟨ts.drop p, d⟩)

namespace Mirrored

theorem chain (h : Mirrored ts budget) (k : Chain) (hp : p ≤ ts.length) (hd : d ≤ maxDepth)
    (hb : 10 * (ts.length - p) + (Level.chain k).rank < budget + 1) :
    Mirrors ts ⟨p, d⟩ (Further p d) (Counting.operand ts (budget + 1) (.chain k) ⟨p, d⟩)
      (readOperand (.chain k) ⟨ts.drop p, d⟩) := by
  have hrank := k.operand_rank_lt
  rw [Counting.operand, readOperand_chain]
  refine Mirrors.called hp hd ?_
  refine (h.operand k.operand hp hd (by omega)).bind (fun c hc => hc.notBefore.le_position) ?_
  rintro lhs p' d' hp' ⟨hlt, hd'⟩
  obtain rfl : d' = d := hd'
  have hlt : p < p' := hlt
  exact (h.links k lhs 0 hp' hd (by omega)).mono fun c hc => hc.further hlt

theorem prefixed (h : Mirrored ts budget) {l l' : Level} {u : Token} {make : Expr → Expr}
    (hu : Prefix l l' u make) (hp : p ≤ ts.length) (hd : d ≤ maxDepth)
    (hb : 10 * (ts.length - p) + l.rank < budget + 1) :
    Mirrors ts ⟨p, d⟩ (Further p d) (Counting.operand ts (budget + 1) l ⟨p, d⟩)
      (readOperand l ⟨ts.drop p, d⟩) := by
  have hprogram : Counting.operand ts (budget + 1) l = Counting.called (.operand l) (do
      if ← Counting.eat ts u then do
        Counting.enter
        let e ← Counting.operand ts budget l
        Counting.leave 1
        return make e
      else Counting.operand ts budget l') := by
    cases hu <;> rfl
  rw [hprogram]
  refine Mirrors.called hp hd ?_
  obtain ⟨t, r, hr, ht⟩ | ht := head_token_eq_or_ne (ts.drop p) u
  · obtain ⟨hp', hr'⟩ := drop_eq_cons hr
    rw [Counting.eat_bind_of_eq hr ht, hr, readOperand_prefix hu ht, ← hr']
    refine Mirrors.pass hp' hd ?_
    refine Mirrors.enter hp' hd fun hlt => ?_
    refine (h.operand l hp' hlt (by omega)).bind (fun c hc => hc.notBefore.le_position) ?_
    rintro e p₁ d₁ hp₁ ⟨hlt₁, hd₁⟩
    obtain rfl : d₁ = d + 1 := hd₁
    have hpost : Further p d ⟨p₁, d⟩ := ⟨Nat.lt_trans (Nat.lt_succ_self p) hlt₁, rfl⟩
    exact .leave hp₁ hd (.pure hp₁ hpost)
  · have hrank : l'.rank < l.rank := by cases hu <;> decide
    rw [Counting.eat_bind_of_ne ht, readOperand_tighter hu ht]
    exact h.operand l' hp hd (by omega)

theorem comparison (h : Mirrored ts budget) (hp : p ≤ ts.length) (hd : d ≤ maxDepth)
    (hb : 10 * (ts.length - p) + Level.comparison.rank < budget + 1) :
    Mirrors ts ⟨p, d⟩ (Further p d) (Counting.operand ts (budget + 1) .comparison ⟨p, d⟩)
      (readOperand .comparison ⟨ts.drop p, d⟩) := by
  have hrank : (Level.chain .sum).rank < Level.comparison.rank := by decide
  rw [Counting.operand, readOperand_comparison]
  refine Mirrors.called hp hd ?_
  refine (h.operand (.chain .sum) hp hd (by omega)).bind (fun c hc => hc.notBefore.le_position) ?_
  rintro first p' d' hp' ⟨hlt, hd'⟩
  obtain rfl : d' = d := hd'
  have hlt : p < p' := hlt
  refine (h.comparisons hp' hd (by omega)).bind (fun c hc => hc.1) ?_
  rintro ops p₁ d₁ hp₁ ⟨hle, hd₁⟩
  exact .pure hp₁ ⟨Nat.lt_of_lt_of_le hlt hle, hd₁⟩

theorem parens (h : Mirrored ts budget) {t : Lexeme} {r : List Lexeme} (hr : ts.drop p = t :: r)
    (ht : t.token = .lparen) (hd : d ≤ maxDepth) (hb : 10 * (ts.length - p) < budget + 1) :
    Mirrors ts ⟨p + 1, d⟩ (Further p d)
      ((do
        Counting.enter
        let e ← Counting.operand ts budget (.chain .or)
        if ← Counting.eat ts .rparen then do
          Counting.leave 1
          return e
        else Counting.halt .expectedParen : Counting Expr) ⟨p + 1, d⟩)
      (readOperand .primary ⟨t :: r, d⟩) := by
  have hrank : (Level.chain .or).rank = 7 := rfl
  obtain ⟨hp, hr⟩ := drop_eq_cons hr
  rw [readOperand_parens ht, ← hr]
  refine Mirrors.enter hp hd fun hlt => ?_
  refine (h.operand (.chain .or) hp hlt (by omega)).bind (fun c hc => hc.notBefore.le_position) ?_
  rintro e p₁ d₁ hp₁ ⟨hlt₁, hd₁⟩
  obtain rfl : d₁ = d + 1 := hd₁
  have hlt₁ : p + 1 < p₁ := hlt₁
  dsimp only
  obtain ⟨u, r', hr', hu⟩ | hu := head_token_eq_or_ne (ts.drop p₁) .rparen
  · obtain ⟨hp₂, hr₂⟩ := drop_eq_cons hr'
    rw [Counting.eat_bind_of_eq hr' hu, hr', closeParens_close hu, ← hr₂]
    have hpost : Further p d ⟨p₁ + 1, d⟩ := ⟨by show p < p₁ + 1; omega, rfl⟩
    exact .pass hp₂ hlt (.leave hp₂ hd (.pure hp₂ hpost))
  · rw [Counting.eat_bind_of_ne hu, closeParens_unclosed hu]
    exact .halt _

theorem list (h : Mirrored ts budget) {t : Lexeme} {r : List Lexeme} (hr : ts.drop p = t :: r)
    (ht : t.token = .lbracket) (hd : d ≤ maxDepth) (hb : 10 * (ts.length - p) < budget + 1) :
    Mirrors ts ⟨p + 1, d⟩ (Further p d)
      ((do
        Counting.enter
        let es ← Counting.called .items (Counting.items ts budget)
        Counting.leave 1
        return .list es : Counting Expr) ⟨p + 1, d⟩)
      (readOperand .primary ⟨t :: r, d⟩) := by
  obtain ⟨hp, hr⟩ := drop_eq_cons hr
  rw [readOperand_list ht, ← hr]
  refine Mirrors.enter hp hd fun hlt => ?_
  refine (Mirrors.called hp hlt (h.items hp hlt (by omega))).bind
    (fun c hc => hc.notBefore.le_position) ?_
  rintro es p₁ d₁ hp₁ ⟨hlt₁, hd₁⟩
  obtain rfl : d₁ = d + 1 := hd₁
  have hpost : Further p d ⟨p₁, d⟩ := ⟨Nat.lt_trans (Nat.lt_succ_self p) hlt₁, rfl⟩
  exact .leave hp₁ hd (.pure hp₁ hpost)

theorem primary (h : Mirrored ts budget) (hp : p ≤ ts.length) (hd : d ≤ maxDepth)
    (hb : 10 * (ts.length - p) + Level.primary.rank < budget + 1) :
    Mirrors ts ⟨p, d⟩ (Further p d) (Counting.operand ts (budget + 1) .primary ⟨p, d⟩)
      (readOperand .primary ⟨ts.drop p, d⟩) := by
  have hb : 10 * (ts.length - p) < budget + 1 := hb
  rw [Counting.operand]
  refine Mirrors.called hp hd ?_
  cases hr : ts.drop p with
  | nil =>
    rw [Counting.advance_bind_nil hr, readOperand_nil, ← hr]
    exact .halt .unexpectedEnd
  | cons t r =>
    obtain ⟨hp', hr'⟩ := drop_eq_cons hr
    rw [Counting.advance_bind hr]
    dsimp only
    cases hleaf : leaf? t.token with
    | some e =>
      rw [readOperand_leaf hleaf, ← hr']
      exact .pass hp' hd (.pure hp' ⟨Nat.lt_succ_self p, rfl⟩)
    | none =>
      dsimp only
      by_cases hparen : t.token = .lparen
      · rw [if_pos hparen]
        exact .pass hp' hd (h.parens hr hparen hd hb)
      · rw [if_neg hparen]
        by_cases hbracket : t.token = .lbracket
        · rw [if_pos hbracket]
          exact .pass hp' hd (h.list hr hbracket hd hb)
        · -- Going back ends at the position of the call, which is no further than its start.
          rw [if_neg hbracket, readOperand_unexpected hleaf hparen hbracket, ← hr,
            Counting.back_bind]
          have hdepth := Nat.le_succ_of_le hd
          exact .after ⟨Nat.le_succ p, hp', hdepth⟩ (.after ⟨Nat.le_refl p, hp, hdepth⟩ (.halt _))

theorem links_succ (h : Mirrored ts budget) (k : Chain) (lhs : Expr) (i : Nat)
    (hp : p ≤ ts.length) (hd : d + i ≤ maxDepth) (hb : 10 * (ts.length - p) < budget + 1) :
    Mirrors ts ⟨p, d + i⟩ (NotBefore p d) (Counting.links ts (budget + 1) k lhs i ⟨p, d + i⟩)
      (readLinks k lhs i ⟨ts.drop p, d + i⟩) := by
  have hd' : d ≤ maxDepth := by omega
  have hrank : k.operand.rank ≤ 6 := by cases k <;> decide
  have hstop : Mirrors ts ⟨p, d + i⟩ (NotBefore p d)
      ((Counting.leave i >>= fun _ => return lhs : Counting Expr) ⟨p, d + i⟩)
      (.ok (lhs, ⟨ts.drop p, d⟩)) :=
    .leave hp hd' (.pure hp ⟨Nat.le_refl p, rfl⟩)
  rw [Counting.links, Counting.ahead_bind]
  cases hr : ts.drop p with
  | nil =>
    rw [hr] at hstop
    rw [readLinks_nil, Nat.add_sub_cancel]
    exact hstop
  | cons t r =>
    obtain ⟨hp', hr'⟩ := drop_eq_cons hr
    rw [List.head?_cons, Option.bind_some]
    cases hj : k.join? t.token with
    | none =>
      rw [hr] at hstop
      rw [readLinks_stop hj, Nat.add_sub_cancel]
      exact hstop
    | some join =>
      rw [readLinks_link hj, ← hr']
      dsimp only
      rw [Counting.pass_bind]
      refine .pass hp' hd (.enter hp' hd fun hlt => ?_)
      refine (h.operand k.operand hp' hlt (by omega)).bind
        (fun c hc => hc.notBefore.le_position) ?_
      rintro rhs p₁ d₁ hp₁ ⟨hlt₁, hd₁⟩
      obtain rfl : d₁ = d + i + 1 := hd₁
      have hlt₁ : p + 1 < p₁ := hlt₁
      refine (h.links k (join lhs rhs) (i + 1) hp₁ hlt (by omega)).mono fun c hc => ?_
      exact ⟨by have := hc.le_position; omega, hc.depth_eq⟩

theorem comparisons_succ (h : Mirrored ts budget) (hp : p ≤ ts.length) (hd : d ≤ maxDepth)
    (hb : 10 * (ts.length - p) < budget + 1) :
    Mirrors ts ⟨p, d⟩ (NotBefore p d) (Counting.comparisons ts (budget + 1) ⟨p, d⟩)
      (readComparisons ⟨ts.drop p, d⟩) := by
  have hrank : (Level.chain .sum).rank = 3 := rfl
  rw [Counting.comparisons, Counting.ahead_bind]
  cases hop : comparison? (ts.drop p) with
  | none =>
    rw [readComparisons_stop hop]
    exact .pure hp ⟨Nat.le_refl p, rfl⟩
  | some link =>
    obtain ⟨op, r⟩ := link
    obtain ⟨hp', hr', hwidth⟩ := comparison?_drop hop
    rw [readComparisons_link hop, ← hr']
    dsimp only
    rw [Counting.pass_bind]
    refine .pass hp' hd ?_
    refine (h.operand (.chain .sum) hp' hd (by omega)).bind
      (fun c hc => hc.notBefore.le_position) ?_
    rintro e p₁ d₁ hp₁ ⟨hlt₁, hd₁⟩
    obtain rfl : d₁ = d := hd₁
    have hlt₁ : p + op.width < p₁ := hlt₁
    refine (h.comparisons hp₁ hd (by omega)).bind (fun c hc => hc.le_position) ?_
    rintro ops p₂ d₂ hp₂ ⟨hle₂, hd₂⟩
    have hle₂ : p₁ ≤ p₂ := hle₂
    exact .pure hp₂ ⟨by show p ≤ p₂; omega, hd₂⟩

theorem items_succ (h : Mirrored ts budget) (hp : p ≤ ts.length) (hd : d ≤ maxDepth)
    (hb : 10 * (ts.length - p) + 8 < budget + 1) :
    Mirrors ts ⟨p, d⟩ (Further p d) (Counting.items ts (budget + 1) ⟨p, d⟩)
      (readItems ⟨ts.drop p, d⟩) := by
  have hrank : (Level.chain .or).rank = 7 := rfl
  rw [Counting.items]
  obtain ⟨t, r, hr, ht⟩ | ht := head_token_eq_or_ne (ts.drop p) .rbracket
  · obtain ⟨hp', hr'⟩ := drop_eq_cons hr
    rw [Counting.eat_bind_of_eq hr ht, hr, readItems_close ht, ← hr']
    exact .pass hp' hd (.pure hp' ⟨Nat.lt_succ_self p, rfl⟩)
  · rw [Counting.eat_bind_of_ne ht]
    have hitem := h.operand (.chain .or) hp hd (by omega)
    rw [readItems_next ht]
    refine hitem.bind (fun c hc => hc.notBefore.le_position) ?_
    rintro e p₁ d₁ hp₁ ⟨hlt₁, hd₁⟩
    obtain rfl : d₁ = d := hd₁
    have hlt₁ : p < p₁ := hlt₁
    dsimp only
    obtain ⟨u, r', hr', hu⟩ | hu := head_token_eq_or_ne (ts.drop p₁) .rbracket
    · obtain ⟨hp₂, hr₂⟩ := drop_eq_cons hr'
      rw [Counting.eat_bind_of_eq hr' hu, hr', afterItem_close hu, ← hr₂]
      exact .pass hp₂ hd (.pure hp₂ ⟨Nat.lt_succ_of_lt hlt₁, rfl⟩)
    · rw [Counting.eat_bind_of_ne hu, if_neg Bool.false_ne_true]
      obtain ⟨v, r', hr', hv⟩ | hv := head_token_eq_or_ne (ts.drop p₁) .comma
      · obtain ⟨hp₂, hr₂⟩ := drop_eq_cons hr'
        rw [Counting.eat_bind_of_eq hr' hv, hr', afterItem_next hv, ← hr₂]
        refine .pass hp₂ hd ?_
        refine (h.items hp₂ hd (by omega)).bind (fun c hc => hc.notBefore.le_position) ?_
        rintro es p₂ d₂ hp₃ ⟨hlt₂, hd₂⟩
        have hlt₂ : p₁ + 1 < p₂ := hlt₂
        exact .pure hp₃ ⟨by show p < p₂; omega, hd₂⟩
      · rw [Counting.eat_bind_of_ne hv, afterItem_unseparated hu hv]
        exact .halt _

theorem succ (h : Mirrored ts budget) : Mirrored ts (budget + 1) where
  operand l _ _ hp hd hb := by
    cases l with
    | chain k => exact h.chain k hp hd hb
    | negation => exact h.prefixed .not hp hd hb
    | comparison => exact h.comparison hp hd hb
    | unary => exact h.prefixed .neg hp hd hb
    | primary => exact h.primary hp hd hb
  links k lhs i _ _ hp hd hb := h.links_succ k lhs i hp hd hb
  comparisons hp hd hb := h.comparisons_succ hp hd hb
  items hp hd hb := h.items_succ hp hd hb

end Mirrored

theorem mirrored (ts : List Lexeme) (budget : Nat) : Mirrored ts budget := by
  induction budget with
  | zero =>
    constructor
    all_goals
      intros
      contradiction
  | succ budget ih => exact ih.succ

/-! ## Whole expressions -/

theorem Ends.result?_eq {ending : Ending α} (h : Ends ts post ending y) :
    ending.result? ts = some (y.map Prod.fst) := by
  cases h <;> rfl

/-- `parseTokens` with the cursor at its end. -/
def readExpression (ts : List Lexeme) : Except Halt (Expr × Cursor) := do
  let (e, c) ← readOperand (.chain .or) ⟨ts, 0⟩
  match c.rest with
  | [] => return (e, c)
  | t :: r => .error ⟨t :: r, .trailing t.token⟩

theorem map_fst_readExpression (ts : List Lexeme) :
    (readExpression ts).map Prod.fst = parseTokens ts := by
  rw [readExpression, readOperand, parseTokens]
  cases operand (.chain .or) ⟨ts, 0⟩ with
  | error => rfl
  | ok result =>
    obtain ⟨⟨e, ⟨rest, d⟩⟩, h⟩ := result
    cases rest <;> rfl

theorem mirrors_expression (ts : List Lexeme) (hb : 10 * (ts.length + 1) ≤ budget) :
    Mirrors ts ⟨0, 0⟩ (Further 0 0) (Counting.expression ts budget ⟨0, 0⟩)
      (readExpression ts) := by
  have hrank : (Level.chain .or).rank = 7 := rfl
  have hoperand := (mirrored ts budget).operand (.chain .or) (Nat.zero_le _) (Nat.zero_le _)
    (by omega)
  rw [List.drop_zero] at hoperand
  refine hoperand.bind (fun c hc => hc.notBefore.le_position) ?_
  rintro e p d hp hpost
  rw [Counting.ahead_bind]
  cases hr : ts.drop p with
  | nil =>
    dsimp only
    rw [← hr]
    exact .pure hp hpost
  | cons t r =>
    dsimp only
    rw [← hr]
    exact .halt _

theorem result?_expression (ts : List Lexeme) (hb : 10 * (ts.length + 1) ≤ budget) :
    (Counting.expression ts budget ⟨0, 0⟩).ending.result? ts = some (parseTokens ts) := by
  rw [(mirrors_expression ts hb).ends.result?_eq, map_fst_readExpression]

/-- **The parser's counters stay in range.** On a budget of nested calls that grows with the number
of tokens, the parser never runs out and does what `parseTokens` does. No subtraction goes below
zero, and in each call the position stays between its start and the end of the tokens and the depth
at most at 129; a call that returns has passed a token and restored the depth. -/
theorem counters_in_range (ts : List Lexeme) {budget : Nat} (hb : 10 * (ts.length + 1) ≤ budget) :
    (Counting.expression ts budget ⟨0, 0⟩).ending.result? ts = some (parseTokens ts) ∧
      ∀ v ∈ (Counting.expression ts budget ⟨0, 0⟩).visits,
        (∀ c ∈ v.start :: v.passed,
          v.start.position ≤ c.position ∧ c.position ≤ ts.length ∧ c.depth ≤ 129) ∧
        (∀ c, v.ending = .returned () c →
          v.start.position < c.position ∧ c.depth = v.start.depth) ∧
        v.ending ≠ .underflow ∧ v.ending ≠ .unfinished := by
  refine ⟨result?_expression ts hb, fun v hv => ?_⟩
  have hsound := (mirrors_expression ts hb).sound v hv
  refine ⟨fun c hc => ?_, hsound.returned, hsound.not_underflow, hsound.finished⟩
  have hc := hsound.inside c hc
  exact ⟨hc.le_position, hc.position_le, hc.depth_le⟩

/-- The call that reads the items of `[-a]`, after the bracket and with one level open. -/
theorem counters_in_range_list :
    10 * (([⟨.lbracket, 0⟩, ⟨.minus, 1⟩, ⟨.ident "a", 2⟩, ⟨.rbracket, 3⟩] : List Lexeme).length + 1)
        ≤ 50 ∧
      ⟨.items, ⟨1, 1⟩, [⟨2, 1⟩, ⟨2, 2⟩, ⟨3, 2⟩, ⟨3, 1⟩, ⟨3, 1⟩, ⟨3, 1⟩, ⟨3, 1⟩, ⟨3, 1⟩, ⟨4, 1⟩],
        .returned () ⟨4, 1⟩⟩ ∈ (Counting.expression
          [⟨.lbracket, 0⟩, ⟨.minus, 1⟩, ⟨.ident "a", 2⟩, ⟨.rbracket, 3⟩] 50 ⟨0, 0⟩).visits ∧
      (1 ≤ 3 ∧ 3 ≤ 4 ∧ 2 ≤ 129) ∧ 1 < 4 ∧
      (Counting.expression [⟨.lbracket, 0⟩, ⟨.minus, 1⟩, ⟨.ident "a", 2⟩, ⟨.rbracket, 3⟩] 50
        ⟨0, 0⟩).ending.result? [⟨.lbracket, 0⟩, ⟨.minus, 1⟩, ⟨.ident "a", 2⟩, ⟨.rbracket, 3⟩] =
      some (parseTokens [⟨.lbracket, 0⟩, ⟨.minus, 1⟩, ⟨.ident "a", 2⟩, ⟨.rbracket, 3⟩]) := by
  obtain ⟨hresult, hvisits⟩ := counters_in_range
    [⟨.lbracket, 0⟩, ⟨.minus, 1⟩, ⟨.ident "a", 2⟩, ⟨.rbracket, 3⟩] (by decide : 10 * (4 + 1) ≤ 50)
  have hitems : ⟨.items, ⟨1, 1⟩,
      [⟨2, 1⟩, ⟨2, 2⟩, ⟨3, 2⟩, ⟨3, 1⟩, ⟨3, 1⟩, ⟨3, 1⟩, ⟨3, 1⟩, ⟨3, 1⟩, ⟨4, 1⟩],
      .returned () ⟨4, 1⟩⟩ ∈ (Counting.expression
        [⟨.lbracket, 0⟩, ⟨.minus, 1⟩, ⟨.ident "a", 2⟩, ⟨.rbracket, 3⟩] 50 ⟨0, 0⟩).visits := by
    decide +kernel
  obtain ⟨hinside, hreturned, -, -⟩ := hvisits _ hitems
  exact ⟨by decide, hitems, hinside ⟨3, 2⟩ (by decide), (hreturned _ rfl).1, hresult⟩

/-- The bound on the depth is reached: a level is opened before it is found to be one too many. -/
example : (Counting.expression (List.replicate 129 ⟨.lparen, 0⟩) 1300 ⟨0, 0⟩).passed.getLast? =
    some ⟨129, 129⟩ := by
  decide +kernel

end GuardTree.Formula
