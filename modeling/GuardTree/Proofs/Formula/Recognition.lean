import GuardTree.Proofs.Formula.Grammar
import GuardTree.Proofs.Formula.Reading

/-! # The parser reads exactly its grammar

The parser's depth counter is the cost of what it reads: a reading from depth `d` succeeds exactly
if the tokens derive the expression at a cost `n` with `d + n ≤ maxDepth`, and it leaves the depth
as it was.

* `Reads.between`: what is read derives, by induction on the tokens left and the level.
* `Derives.reads`: what derives is read, by induction on the derivation, if what follows does not
  carry it on (`Stops`).
-/

namespace GuardTree.Formula

set_option autoImplicit false

/-! ## What is read derives -/

/-- Between the two cursors stand tokens with `P` at a cost that fits in; every level that was
opened is closed again. -/
def Between (P : List Token → Nat → Prop) (c c' : Cursor) : Prop :=
  ∃ os n, c.rest = os ++ c'.rest ∧ P (os.map Lexeme.token) n ∧ c.depth + n ≤ maxDepth ∧
    c'.depth = c.depth

variable {P Q R : List Token → Nat → Prop} {c c' c₁ : Cursor} {t : Lexeme} {r : List Lexeme}
  {d : Nat}

theorem Between.mono (h : Between P c c') (hPQ : ∀ ts n, P ts n → Q ts n) : Between Q c c' := by
  obtain ⟨os, n, hr, hP, hn, hd⟩ := h
  exact ⟨os, n, hr, hPQ _ _ hP, hn, hd⟩

theorem Between.depth_eq (h : Between P c c') : c'.depth = c.depth := by
  obtain ⟨-, -, -, -, -, hd⟩ := h
  exact hd

theorem Between.append (h : Between P c c₁) (h' : Between Q c₁ c')
    (hR : ∀ ts us n m, P ts n → Q us m → R (ts ++ us) (max n m)) : Between R c c' := by
  obtain ⟨os, n, hr, hP, hn, hd⟩ := h
  obtain ⟨os', m, hr', hQ, hm, hd'⟩ := h'
  refine ⟨os ++ os', max n m, ?_, ?_, by omega, hd'.trans hd⟩
  · rw [hr, hr', List.append_assoc]
  · rw [List.map_append]
    exact hR _ _ _ _ hP hQ

theorem Between.prepend {os rest : List Lexeme} (h : Between P ⟨r, d⟩ c') (hr : rest = os ++ r)
    (hQ : ∀ ts n, P ts n → Q (os.map Lexeme.token ++ ts) n) : Between Q ⟨rest, d⟩ c' := by
  obtain ⟨os', n, hr', hP, hn, hd⟩ := h
  refine ⟨os ++ os', n, ?_, ?_, hn, hd⟩
  · dsimp only at hr' ⊢
    rw [hr, hr', List.append_assoc]
  · rw [List.map_append]
    exact hQ _ _ hP

/-- What is read with one more level open, which is closed after it. -/
theorem Between.nest (h : Between P ⟨r, d + 1⟩ c₁)
    (hQ : ∀ ts n, P ts n → Q (t.token :: ts) (1 + n)) :
    Between Q ⟨t :: r, d⟩ ⟨c₁.rest, c₁.depth - 1⟩ := by
  obtain ⟨os, n, hr, hP, hn, hd⟩ := h
  refine ⟨t :: os, 1 + n, congrArg (t :: ·) hr, hQ _ _ hP, ?_, ?_⟩
  · dsimp only at hn ⊢
    omega
  · dsimp only at hd ⊢
    omega

theorem Between.drop {u : Lexeme} (h : Between P c ⟨u :: r, d⟩)
    (hQ : ∀ ts n, P ts n → Q (ts ++ [u.token]) n) : Between Q c ⟨r, d⟩ := by
  obtain ⟨os, n, hr, hP, hn, hd⟩ := h
  refine ⟨os ++ [u], n, ?_, ?_, hn, hd⟩
  · rw [hr, List.append_assoc]
    rfl
  · rw [List.map_append]
    exact hQ _ _ hP

/-- The items of a list, if there are any, and the closing bracket. -/
inductive Closes : List Token → List Expr → Nat → Prop
  | nil : Closes [.rbracket] [] 0
  | items {ts : List Token} {es : List Expr} {n : Nat} (h : Listed ts es n) :
      Closes (ts ++ [.rbracket]) es n

theorem Closes.cons {ts us : List Token} {e : Expr} {es : List Expr} {n m : Nat}
    (h : Derives (.chain .or) ts e n) (hc : Closes us es m) :
    Closes (ts ++ .comma :: us) (e :: es) (max n m) := by
  cases hc with
  | nil =>
    have hl : Closes ((ts ++ [.comma]) ++ [.rbracket]) [e] n := .items (.trailing h)
    rw [List.append_assoc] at hl
    rw [Nat.max_zero]
    exact hl
  | items hl =>
    have hl := Closes.items (.cons h hl)
    rw [List.append_assoc] at hl
    exact hl

theorem Closes.derives {ts : List Token} {es : List Expr} {n : Nat} (h : Closes ts es n) :
    Derives .primary (.lbracket :: ts) (.list es) (1 + n) := by
  cases h with
  | nil => exact .empty
  | items hl => exact .list hl

mutual

theorem Reads.between {l : Level} {rest : List Lexeme} {d : Nat} {c' : Cursor} {e : Expr}
    (h : Reads l ⟨rest, d⟩ e c') (hd : d ≤ maxDepth) :
    Between (fun ts n => Derives l ts e n) ⟨rest, d⟩ c' := by
  match l with
  | .chain k =>
    obtain ⟨lhs, ⟨r, d₁⟩, ho, hl⟩ := reads_chain_iff.1 h
    have hlt : r.length < rest.length := ho.length_lt
    have hrank := k.operand_rank_lt
    obtain ⟨os, n, hr, hlhs, hn, rfl⟩ := ho.between hd
    refine (hl.between (.first (Chain.over_iff.2 rfl) hlhs) hn).prepend hr ?_
    rintro ts m ⟨j, hj⟩
    exact .chain hj
  | .negation =>
    cases hr : rest with
    | nil =>
      rw [hr] at h
      exact absurd h not_reads_nil
    | cons t r =>
      rw [hr] at h
      by_cases ht : t.token = .not
      · obtain ⟨hd, e₁, c₁, ho, rfl, rfl⟩ := (reads_prefix_iff .not ht).1 h
        refine (ho.between hd).nest fun ts n hts => ?_
        rw [ht]
        exact .not hts
      · have ho := (reads_tighter_iff .not ht).1 h
        exact (ho.between hd).mono fun ts n hts => .comparison hts
  | .comparison =>
    obtain ⟨first, ⟨r, d₁⟩, ls, ho, hl, rfl⟩ := reads_comparison_iff.1 h
    have hlt : r.length < rest.length := ho.length_lt
    have hfirst := ho.between hd
    obtain rfl : d₁ = d := hfirst.depth_eq
    refine hfirst.append (hl.between hd) fun ts us n m hts hus => ?_
    by_cases hls : ls = []
    · obtain rfl := hls
      cases hus
      rw [List.append_nil, Nat.max_zero]
      exact .sum hts
    · rw [if_neg (by rwa [List.isEmpty_iff])]
      exact .compare hts hus hls
  | .unary =>
    cases hr : rest with
    | nil =>
      rw [hr] at h
      exact absurd h not_reads_nil
    | cons t r =>
      rw [hr] at h
      by_cases ht : t.token = .minus
      · obtain ⟨hd, e₁, c₁, ho, rfl, rfl⟩ := (reads_prefix_iff .neg ht).1 h
        refine (ho.between hd).nest fun ts n hts => ?_
        rw [ht]
        exact .neg hts
      · have ho := (reads_tighter_iff .neg ht).1 h
        exact (ho.between hd).mono fun ts n hts => .primary hts
  | .primary =>
    cases hr : rest with
    | nil =>
      rw [hr] at h
      exact absurd h not_reads_nil
    | cons t r =>
      rw [hr] at h
      cases hleaf : leaf? t.token with
      | some e₀ =>
        obtain ⟨rfl, rfl⟩ := (reads_leaf_iff hleaf).1 h
        exact ⟨[t], 0, rfl, .single (makes_iff.2 hleaf), hd, rfl⟩
      | none =>
        by_cases hparen : t.token = .lparen
        · obtain ⟨hd, ⟨r₁, d₁⟩, u, r', ho, rfl, hu, rfl⟩ := (reads_parens_iff hparen).1 h
          have hinner : Between (fun ts n => Derives .primary (.lparen :: ts) e (1 + n)) ⟨r, d + 1⟩
              ⟨r', d₁⟩ := by
            refine (ho.between hd).drop fun ts n hts => ?_
            rw [hu]
            exact .parens hts
          refine hinner.nest fun ts n hts => ?_
          rwa [hparen]
        · by_cases hbracket : t.token = .lbracket
          · obtain ⟨hd, es, c₁, hi, rfl, rfl⟩ := (reads_list_iff hbracket).1 h
            refine (hi.between hd).nest fun ts n hts => ?_
            rw [hbracket]
            exact hts.derives
          · exact absurd h (not_reads_primary hleaf hparen hbracket)
termination_by (rest.length, l.rank)
decreasing_by
  · exact Prod.Lex.right _ hrank
  · exact Prod.Lex.left _ _ hlt
  · exact Prod.Lex.left _ _ (by rw [hr]; exact Nat.lt_succ_self _)
  · rw [hr]
    exact Prod.Lex.right _ (by decide)
  · exact Prod.Lex.right _ (by decide)
  · exact Prod.Lex.left _ _ hlt
  · exact Prod.Lex.left _ _ (by rw [hr]; exact Nat.lt_succ_self _)
  · rw [hr]
    exact Prod.Lex.right _ (by decide)
  · exact Prod.Lex.left _ _ (by rw [hr]; exact Nat.lt_succ_self _)
  · exact Prod.Lex.left _ _ (by rw [hr]; exact Nat.lt_succ_self _)

theorem ReadsLinks.between {k : Chain} {lhs e : Expr} {i d n : Nat} {r : List Lexeme} {c' : Cursor}
    {ts : List Token} (h : ReadsLinks k lhs i ⟨r, d + i⟩ e c') (hl : Chained k ts lhs i n)
    (hd : d + n ≤ maxDepth) :
    Between (fun us m => ∃ j, Chained k (ts ++ us) e j m) ⟨r, d⟩ c' := by
  have hstop : Between (fun us m => ∃ j, Chained k (ts ++ us) lhs j m) ⟨r, d⟩ ⟨r, d + i - i⟩ := by
    refine ⟨[], n, rfl, ⟨i, ?_⟩, hd, ?_⟩
    · rwa [List.map_nil, List.append_nil]
    · exact Nat.add_sub_cancel ..
  cases hr : r with
  | nil =>
    rw [hr] at h hstop
    obtain ⟨rfl, rfl⟩ := readsLinks_nil_iff.1 h
    exact hstop
  | cons t r' =>
    rw [hr] at h hstop
    cases hj : k.join? t.token with
    | none =>
      obtain ⟨rfl, rfl⟩ := (readsLinks_stop_iff hj).1 h
      exact hstop
    | some join =>
      obtain ⟨hd', rhs, ⟨r'', d₁⟩, ho, hl'⟩ := (readsLinks_link_iff hj).1 h
      have hlt : r''.length < r'.length := ho.length_lt
      obtain ⟨os, m, hr', hrhs, hm, rfl⟩ := ho.between hd'
      dsimp only at hr' hm
      have hlink := Chained.link (Chain.over_iff.2 rfl) hl (joins_iff.2 ⟨join, hj, rfl⟩) hrhs
      have hnext := ReadsLinks.between hl' hlink (by omega)
      have hr'' : t :: r' = t :: os ++ r'' := congrArg (t :: ·) hr'
      refine hnext.prepend hr'' ?_
      rintro us m ⟨j, hus⟩
      refine ⟨j, ?_⟩
      rwa [List.append_assoc] at hus
termination_by (r.length, 0)
decreasing_by
  · exact Prod.Lex.left _ _ (by rw [hr]; exact Nat.lt_succ_self _)
  · exact Prod.Lex.left _ _ (by rw [hr, List.length_cons]; omega)

theorem ReadsComparisons.between {rest : List Lexeme} {d : Nat} {c' : Cursor}
    {ls : List (Comparison × Expr)} (h : ReadsComparisons ⟨rest, d⟩ ls c') (hd : d ≤ maxDepth) :
    Between (fun ts n => Compared ts ls n) ⟨rest, d⟩ c' := by
  cases hop : comparison? rest with
  | none =>
    obtain ⟨rfl, rfl⟩ := (readsComparisons_stop_iff hop).1 h
    exact ⟨[], 0, rfl, .nil, hd, rfl⟩
  | some p =>
    obtain ⟨op, r⟩ := p
    obtain ⟨e, ⟨r', d₁⟩, ls', ho, hl, rfl⟩ := (readsComparisons_link_iff hop).1 h
    have hlt := comparison?_length_lt hop
    have hlt₁ : r'.length < r.length := ho.length_lt
    obtain ⟨os, hos, hr⟩ := comparison?_eq_some_iff.1 hop
    have hfirst := ho.between hd
    obtain rfl : d₁ = d := hfirst.depth_eq
    have hlink : Between (fun us n => Compared (os.map Lexeme.token ++ us) ((op, e) :: ls') n)
        ⟨r, d₁⟩ c' :=
      hfirst.append (hl.between hd) fun ts us n m hts hus => .cons hos hts hus
    exact hlink.prepend hr fun us n hus => hus
termination_by (rest.length, 0)
decreasing_by
  · exact Prod.Lex.left _ _ hlt
  · exact Prod.Lex.left _ _ (Nat.lt_trans hlt₁ hlt)

theorem ReadsItems.between {rest : List Lexeme} {d : Nat} {c' : Cursor} {es : List Expr}
    (h : ReadsItems ⟨rest, d⟩ es c') (hd : d ≤ maxDepth) :
    Between (fun ts n => Closes ts es n) ⟨rest, d⟩ c' := by
  cases hr : rest with
  | nil =>
    rw [hr] at h
    exact absurd h not_readsItems_nil
  | cons t r =>
    rw [hr] at h
    by_cases ht : t.token = .rbracket
    · obtain ⟨rfl, rfl⟩ := (readsItems_close_iff ht).1 h
      refine ⟨[t], 0, rfl, ?_, hd, rfl⟩
      rw [List.map_singleton, ht]
      exact .nil
    · obtain ⟨e, ⟨r₁, d₁⟩, u, r', ho, rfl, hu⟩ := (readsItems_iff ht).1 h
      have hlt : (u :: r').length < (t :: r).length := ho.length_lt
      have hfirst := ho.between hd
      obtain rfl : d₁ = d := hfirst.depth_eq
      obtain ⟨hu, rfl, rfl⟩ | ⟨hu, es', hi, rfl⟩ := hu
      · refine hfirst.drop fun ts n hts => ?_
        rw [hu]
        exact .items (.last hts)
      · have hrest := hi.between hd
        have hitem : Between (fun ts n => ∀ us m, Closes us es' m →
            Closes (ts ++ us) (e :: es') (max n m)) ⟨t :: r, d₁⟩ ⟨r', d₁⟩ := by
          refine hfirst.drop fun ts n hts us m hus => ?_
          rw [hu, List.append_assoc]
          exact hus.cons hts
        exact hitem.append hrest fun ts us n m hts hus => hts us m hus
termination_by (rest.length, 8)
decreasing_by
  · rw [hr]
    exact Prod.Lex.right _ (by decide)
  · exact Prod.Lex.left _ _ (by rw [hr]; exact Nat.lt_trans (Nat.lt_succ_self _) hlt)

end

/-! ## What derives is read -/

/-- The tokens `r` do not carry on an expression of level `l`. -/
def Stops (l : Level) (r : List Lexeme) : Prop :=
  (∀ k : Chain, (Level.chain k).rank ≤ l.rank → ∀ t ∈ r.head?, k.join? t.token = none) ∧
    (Level.comparison.rank ≤ l.rank → comparison? r = none)

theorem Stops.mono {l l' : Level} (h : Stops l r) (hl : l'.rank ≤ l.rank) : Stops l' r :=
  ⟨fun k hk => h.1 k (Nat.le_trans hk hl), fun hc => h.2 (Nat.le_trans hc hl)⟩

theorem stops_nil {l : Level} : Stops l [] :=
  ⟨fun _ _ _ ht => by simp at ht, fun _ => rfl⟩

theorem stops_of_closing {l : Level}
    (ht : t.token = .rparen ∨ t.token = .rbracket ∨ t.token = .comma) : Stops l (t :: r) := by
  constructor
  · intro k _ u hu
    obtain rfl : t = u := by simpa using hu
    obtain ht | ht | ht := ht <;> rw [ht] <;> cases k <;> rfl
  · intro _
    obtain ht | ht | ht := ht <;> simp [comparison?, ht]

theorem Joins.stops {k : Chain} {e e' e'' : Expr} (h : Joins k t.token e e' e'') :
    Stops k.operand (t :: r) := by
  constructor
  · intro k' hk u hu
    obtain rfl : t = u := by simpa using hu
    generalize t.token = token at h
    cases h <;> cases k' <;> first | rfl | exact absurd hk (by decide)
  · intro hc
    generalize ht : t.token = token at h
    cases h <;> first | exact absurd hc (by decide) | simp [comparison?, ht]

theorem Compares.stops {ts us : List Token} {op : Comparison} {os : List Lexeme}
    (h : Compares ts op) (hos : os.map Lexeme.token = ts ++ us) :
    Stops (.chain .sum) (os ++ r) := by
  refine ⟨fun k _ u hu => ?_, fun hc => absurd hc (by decide)⟩
  cases h <;>
  · obtain ⟨t, os', rfl, ht, -⟩ := List.map_eq_cons_iff.1 hos
    obtain rfl : t = u := by simpa using hu
    rw [ht]
    cases k <;> rfl

theorem Compared.stops {ts : List Token} {ls : List (Comparison × Expr)} {n : Nat}
    {os rest : List Lexeme} (h : Compared ts ls n) (hos : os.map Lexeme.token = ts)
    (hs : Stops .comparison rest) : Stops (.chain .sum) (os ++ rest) := by
  cases h with
  | nil =>
    obtain rfl := List.map_eq_nil_iff.1 hos
    exact hs.mono (by decide)
  | cons ho => exact ho.stops hos

theorem readsLinks_stop {k : Chain} {e : Expr} {i d : Nat} {rest : List Lexeme}
    (hs : Stops (.chain k) rest) : ReadsLinks k e i ⟨rest, d + i⟩ e ⟨rest, d⟩ := by
  cases rest with
  | nil => exact readsLinks_nil_iff.2 ⟨rfl, by rw [Nat.add_sub_cancel]⟩
  | cons t r =>
    have hj := hs.1 k (Nat.le_refl _) t rfl
    exact (readsLinks_stop_iff hj).2 ⟨rfl, by rw [Nat.add_sub_cancel]⟩

theorem Derives.starts_lexeme {l : Level} {ts : List Token} {e : Expr} {n : Nat}
    {os : List Lexeme} (h : Derives l ts e n) (hos : os.map Lexeme.token = ts) :
    ∃ t os', os = t :: os' ∧ Starts l t.token := by
  obtain ⟨_, _, rfl, hst⟩ := h.starts
  obtain ⟨t, os', rfl, rfl, -⟩ := List.map_eq_cons_iff.1 hos
  exact ⟨t, os', rfl, hst⟩

mutual

theorem Derives.reads {l : Level} {ts : List Token} {e : Expr} {n : Nat} : Derives l ts e n →
    ∀ {os rest : List Lexeme} {d : Nat}, os.map Lexeme.token = ts → Stops l rest →
      d + n ≤ maxDepth → Reads l ⟨os ++ rest, d⟩ e ⟨rest, d⟩
  | .chain h, os, rest, d, hos, hs, hd =>
    h.reads hos (hs.mono (Nat.le_of_lt (Chain.operand_rank_lt _))) hd (readsLinks_stop hs)
  | .not h, os, rest, d, hos, hs, hd => by
    obtain ⟨t, os, rfl, ht, hos⟩ := List.map_eq_cons_iff.1 hos
    exact (reads_prefix_iff .not ht).2 ⟨by omega, _, _, h.reads hos hs (by omega), rfl, rfl⟩
  | .comparison h, os, rest, d, hos, hs, hd => by
    have ho := h.reads hos (hs.mono (by decide)) hd
    obtain ⟨t, os, rfl, hst⟩ := h.starts_lexeme hos
    have ht : t.token ≠ .not := fun ht => absurd (hst.2.1 ht) (by decide)
    exact (reads_tighter_iff .not ht).2 ho
  | .sum h, os, rest, d, hos, hs, hd => by
    refine reads_comparison_iff.2 ⟨_, _, [], h.reads hos (hs.mono (by decide)) hd, ?_, rfl⟩
    exact (readsComparisons_stop_iff (hs.2 (by decide))).2 ⟨rfl, rfl⟩
  | .compare h hl hne, os, rest, d, hos, hs, hd => by
    obtain ⟨os₁, os₂, rfl, hos₁, hos₂⟩ := List.map_eq_append_iff.1 hos
    rw [List.append_assoc]
    have ho := h.reads (d := d) hos₁ (hl.stops hos₂ hs) (by omega)
    have hls := hl.reads (d := d) hos₂ hs (by omega)
    refine reads_comparison_iff.2 ⟨_, _, _, ho, hls, ?_⟩
    rw [if_neg (by rwa [List.isEmpty_iff])]
  | .neg h, os, rest, d, hos, hs, hd => by
    obtain ⟨t, os, rfl, ht, hos⟩ := List.map_eq_cons_iff.1 hos
    exact (reads_prefix_iff .neg ht).2 ⟨by omega, _, _, h.reads hos hs (by omega), rfl, rfl⟩
  | .primary h, os, rest, d, hos, hs, hd => by
    have ho := h.reads hos (hs.mono (by decide)) hd
    obtain ⟨t, os, rfl, hst⟩ := h.starts_lexeme hos
    have ht : t.token ≠ .minus := fun ht => absurd (hst.2.2 ht) (by decide)
    exact (reads_tighter_iff .neg ht).2 ho
  | .single h, os, rest, d, hos, hs, hd => by
    obtain ⟨t, rfl, rfl⟩ := List.map_eq_singleton_iff.1 hos
    exact (reads_leaf_iff (makes_iff.1 h)).2 ⟨rfl, rfl⟩
  | .parens h, os, rest, d, hos, hs, hd => by
    obtain ⟨t, os, rfl, ht, hos⟩ := List.map_eq_cons_iff.1 hos
    obtain ⟨os₁, os₂, rfl, hos₁, hos₂⟩ := List.map_eq_append_iff.1 hos
    obtain ⟨u, rfl, hu⟩ := List.map_eq_singleton_iff.1 hos₂
    rw [List.cons_append, List.append_assoc]
    refine (reads_parens_iff ht).2 ⟨by omega, ⟨u :: rest, d + 1⟩, u, rest, ?_, rfl, hu, rfl⟩
    exact h.reads hos₁ (stops_of_closing (.inl hu)) (by omega)
  | .empty, os, rest, d, hos, hs, hd => by
    obtain ⟨t, os, rfl, ht, hos⟩ := List.map_eq_cons_iff.1 hos
    obtain ⟨u, rfl, hu⟩ := List.map_eq_singleton_iff.1 hos
    refine (reads_list_iff ht).2 ⟨by omega, [], ⟨rest, d + 1⟩, ?_, rfl, rfl⟩
    exact (readsItems_close_iff hu).2 ⟨rfl, rfl⟩
  | .list h, os, rest, d, hos, hs, hd => by
    obtain ⟨t, os, rfl, ht, hos⟩ := List.map_eq_cons_iff.1 hos
    obtain ⟨os₁, os₂, rfl, hos₁, hos₂⟩ := List.map_eq_append_iff.1 hos
    obtain ⟨u, rfl, hu⟩ := List.map_eq_singleton_iff.1 hos₂
    rw [List.cons_append, List.append_assoc]
    refine (reads_list_iff ht).2 ⟨by omega, _, ⟨rest, d + 1⟩, ?_, rfl, rfl⟩
    exact h.reads hos₁ hu (by omega)

theorem Chained.reads {k : Chain} {ts : List Token} {e e' : Expr} {i n : Nat} {c' : Cursor} :
    Chained k ts e i n → ∀ {os rest : List Lexeme} {d : Nat}, os.map Lexeme.token = ts →
      Stops k.operand rest → d + n ≤ maxDepth → ReadsLinks k e i ⟨rest, d + i⟩ e' c' →
        Reads (.chain k) ⟨os ++ rest, d⟩ e' c'
  | .first hk h, os, rest, d, hos, hs, hd, hl => by
    have ho := h.reads hos (by rwa [Chain.over_iff.1 hk]) hd
    rw [Chain.over_iff.1 hk] at ho
    exact reads_chain_iff.2 ⟨_, _, ho, hl⟩
  | .link hk h hj h', os, rest, d, hos, hs, hd, hl => by
    obtain ⟨os₁, os₂, rfl, hos₁, hos₂⟩ := List.map_eq_append_iff.1 hos
    obtain ⟨t, os₃, rfl, rfl, hos₃⟩ := List.map_eq_cons_iff.1 hos₂
    obtain ⟨join, hj', rfl⟩ := joins_iff.1 hj
    have ho := h'.reads (d := d + (_ + 1)) hos₃ (by rwa [Chain.over_iff.1 hk])
      (Nat.le_trans (by rw [Nat.add_assoc]; exact Nat.add_le_add_left (Nat.le_max_right ..) d) hd)
    rw [Chain.over_iff.1 hk] at ho
    rw [List.append_assoc]
    refine h.reads hos₁ hj.stops (by omega) ?_
    exact (readsLinks_link_iff hj').2 ⟨by omega, _, _, ho, hl⟩

theorem Compared.reads {ts : List Token} {ls : List (Comparison × Expr)} {n : Nat} :
    Compared ts ls n → ∀ {os rest : List Lexeme} {d : Nat}, os.map Lexeme.token = ts →
      Stops .comparison rest → d + n ≤ maxDepth →
        ReadsComparisons ⟨os ++ rest, d⟩ ls ⟨rest, d⟩
  | .nil, os, rest, d, hos, hs, hd => by
    obtain rfl := List.map_eq_nil_iff.1 hos
    exact (readsComparisons_stop_iff (hs.2 (by decide))).2 ⟨rfl, rfl⟩
  | .cons ho h hl, os, rest, d, hos, hs, hd => by
    obtain ⟨os₁, os', rfl, hos₁, hos'⟩ := List.map_eq_append_iff.1 hos
    obtain ⟨os₂, os₃, rfl, hos₂, hos₃⟩ := List.map_eq_append_iff.1 hos'
    have hop := h.reads (d := d) hos₂ (hl.stops hos₃ hs) (by omega)
    have hls := hl.reads (d := d) hos₃ hs (by omega)
    rw [List.append_assoc, List.append_assoc]
    have hnext : comparison? (os₁ ++ (os₂ ++ (os₃ ++ rest))) = some (_, os₂ ++ (os₃ ++ rest)) :=
      comparison?_eq_some_iff.2 ⟨os₁, hos₁ ▸ ho, rfl⟩
    exact (readsComparisons_link_iff hnext).2 ⟨_, _, _, hop, hls, rfl⟩

theorem Listed.reads {ts : List Token} {es : List Expr} {n : Nat} :
    Listed ts es n → ∀ {os rest : List Lexeme} {u : Lexeme} {d : Nat}, os.map Lexeme.token = ts →
      u.token = .rbracket → d + n ≤ maxDepth → ReadsItems ⟨os ++ u :: rest, d⟩ es ⟨rest, d⟩
  | .last h, os, rest, u, d, hos, hu, hd => by
    have ho := h.reads hos (stops_of_closing (r := rest) (.inr (.inl hu))) hd
    obtain ⟨t, os, rfl, hst⟩ := h.starts_lexeme hos
    exact (readsItems_iff hst.1).2 ⟨_, _, u, rest, ho, rfl, .inl ⟨hu, rfl, rfl⟩⟩
  | .trailing h, os, rest, u, d, hos, hu, hd => by
    obtain ⟨os₁, os₂, rfl, hos₁, hos₂⟩ := List.map_eq_append_iff.1 hos
    obtain ⟨v, rfl, hv⟩ := List.map_eq_singleton_iff.1 hos₂
    have ho := h.reads hos₁ (stops_of_closing (r := u :: rest) (.inr (.inr hv))) hd
    obtain ⟨t, os, rfl, hst⟩ := h.starts_lexeme hos₁
    rw [List.append_assoc]
    have hclose := readsItems_close_iff (r := rest) (d := d) hu |>.2 ⟨rfl, rfl⟩
    exact (readsItems_iff hst.1).2 ⟨_, _, v, u :: rest, ho, rfl, .inr ⟨hv, [], hclose, rfl⟩⟩
  | .cons h hl, os, rest, u, d, hos, hu, hd => by
    obtain ⟨os₁, os₂, rfl, hos₁, hos₂⟩ := List.map_eq_append_iff.1 hos
    obtain ⟨v, os₃, rfl, hv, hos₃⟩ := List.map_eq_cons_iff.1 hos₂
    have ho := h.reads (d := d) hos₁ (stops_of_closing (r := os₃ ++ u :: rest) (.inr (.inr hv)))
      (by omega)
    have hes : ReadsItems ⟨os₃ ++ u :: rest, d⟩ _ ⟨rest, d⟩ := hl.reads hos₃ hu (by omega)
    obtain ⟨t, os, rfl, hst⟩ := h.starts_lexeme hos₁
    rw [List.append_assoc]
    exact (readsItems_iff hst.1).2 ⟨_, _, v, _, ho, rfl, .inr ⟨hv, _, hes, rfl⟩⟩

end

/-! ## Whole expressions -/

theorem parseTokens_eq_ok_iff {os : List Lexeme} {e : Expr} :
    parseTokens os = .ok e ↔ ∃ d, Reads (.chain .or) ⟨os, 0⟩ e ⟨[], d⟩ := by
  rw [parseTokens, bind_eq_ok_iff]
  constructor
  · rintro ⟨⟨⟨e', ⟨rest, d⟩⟩, h⟩, ho, hr⟩
    cases rest with
    | cons => cases hr
    | nil =>
      cases hr
      exact ⟨d, h, ho⟩
  · rintro ⟨d, h, ho⟩
    exact ⟨_, ho, rfl⟩

theorem derives_of_parseTokens {os : List Lexeme} {e : Expr} (h : parseTokens os = .ok e) :
    ∃ n, n ≤ maxDepth ∧ Derives (.chain .or) (os.map Lexeme.token) e n := by
  obtain ⟨d, ho⟩ := parseTokens_eq_ok_iff.1 h
  obtain ⟨os', n, hr, hts, hn, -⟩ := ho.between (Nat.zero_le _)
  obtain rfl : os = os' := by simpa using hr
  exact ⟨n, by simpa using hn, hts⟩

theorem parseTokens_of_derives {os : List Lexeme} {e : Expr} {n : Nat}
    (h : Derives (.chain .or) (os.map Lexeme.token) e n) (hn : n ≤ maxDepth) :
    parseTokens os = .ok e := by
  have ho := h.reads (d := 0) rfl stops_nil (by omega)
  rw [List.append_nil] at ho
  exact parseTokens_eq_ok_iff.2 ⟨0, ho⟩

theorem parse_eq_ok_iff {source : String} {e : Expr} :
    parse source = .ok e ↔ ∃ os, tokenize source = .ok os ∧ parseTokens os = .ok e := by
  rw [parse, bind_eq_ok_iff]
  refine exists_congr fun os => and_congr_right fun _ => ?_
  cases parseTokens os with
  | ok e' =>
    constructor
    all_goals
      intro h
      cases h
      rfl
  | error =>
    constructor
    all_goals
      intro h
      cases h

/-- **Tokens are read exactly if the grammar derives them within its budget.** The expression that
is read is one that they derive, at a cost of at most 128 levels of nesting. -/
theorem parseTokens_recognizes_grammar (os : List Lexeme) (e : Expr) :
    parseTokens os = .ok e ↔
      ∃ n, n ≤ 128 ∧ Derives (.chain .or) (os.map Lexeme.token) e n := by
  constructor
  · exact derives_of_parseTokens
  · rintro ⟨n, hn, h⟩
    exact parseTokens_of_derives h hn

end GuardTree.Formula
