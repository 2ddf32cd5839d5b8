import GuardTree.Placeholder.Expansion
import GuardTree.Proofs.Formula.Grammar
import Mathlib.Data.List.Chain
import Mathlib.Data.List.Forall2

/-! # Expressions of one shape

What becomes of an expression when its placeholders are replaced by words and numbers and the texts
of its literals change: the same expression with other leaves (`Expr.Expands`). Tokens that are
replaced in this way derive it again, at the same cost (`Derives.expand`). No two operands stand
next to each other in a derivation (`Derives.parted`).
-/

namespace GuardTree.Formula

set_option autoImplicit false

/-- The words that are no identifiers. -/
def reserved : List String :=
  ["and", "or", "not", "in", "True", "true", "False", "false", "None"]

/-- `Denotes v t`: as a part of an expression, the text `v` is an identifier or a number, and `t` is
its token. -/
inductive Denotes : String → Token → Prop
  | word {v : String} {c : Char} {cs : List Char} (hv : v.toList = c :: cs)
      (hc : c.isAlpha = true ∨ c = '_') (hcs : ∀ d ∈ cs, d.isAlphanum = true ∨ d = '_')
      (hr : v ∉ reserved) : Denotes v (.ident v)
  | number {v : String} (hne : v ≠ "") (hd : ∀ c ∈ v.toList, c.isDigit = true)
      (hle : Decimal.natOfDigits v.toList ≤ maxInt) :
      Denotes v (.int (Int64.ofNat (Decimal.natOfDigits v.toList)))

/-- What becomes of a token: a placeholder is replaced, a literal gets some text, the others
stay. -/
inductive Token.Expands (r : Resolver) : Token → Token → Prop
  | var {name v : String} {t : Token} (hv : r name = some v) (ht : Denotes v t) :
      Token.Expands r (.var name) t
  | str (s s' : String) : Token.Expands r (.str s) (.str s')
  | same {t : Token} (ht : ∀ name, t ≠ .var name) : Token.Expands r t t

inductive Linked (R : Expr → Expr → Prop) : Comparison × Expr → Comparison × Expr → Prop
  | mk {op : Comparison} {e e' : Expr} (h : R e e') : Linked R (op, e) (op, e')

/-- What becomes of an expression: a placeholder is replaced by the identifier or the integer of its
value, a literal text by another one, and nothing else changes. -/
inductive Expr.Expands (r : Resolver) : Expr → Expr → Prop
  | var {name v : String} {t : Token} {e : Expr} (hv : r name = some v) (ht : Denotes v t)
      (he : Makes t e) : Expr.Expands r (.var name) e
  | str (s s' : String) : Expr.Expands r (.literal (.str s)) (.literal (.str s'))
  | literal {v : Value} (hv : ∀ s, v ≠ .str s) : Expr.Expands r (.literal v) (.literal v)
  | ident (name : String) : Expr.Expands r (.ident name) (.ident name)
  | list {es es' : List Expr} (h : List.Forall₂ (Expr.Expands r) es es') :
      Expr.Expands r (.list es) (.list es')
  | not {e e' : Expr} (h : Expr.Expands r e e') : Expr.Expands r (.not e) (.not e')
  | neg {e e' : Expr} (h : Expr.Expands r e e') : Expr.Expands r (.neg e) (.neg e')
  | and {e e' f f' : Expr} (h : Expr.Expands r e e') (h' : Expr.Expands r f f') :
      Expr.Expands r (.and e f) (.and e' f')
  | or {e e' f f' : Expr} (h : Expr.Expands r e e') (h' : Expr.Expands r f f') :
      Expr.Expands r (.or e f) (.or e' f')
  | compare {e e' : Expr} {ls ls' : List (Comparison × Expr)} (h : Expr.Expands r e e')
      (hl : List.Forall₂ (Linked (Expr.Expands r)) ls ls') :
      Expr.Expands r (.compare e ls) (.compare e' ls')
  | arith {op : Arithmetic} {e e' f f' : Expr} (h : Expr.Expands r e e')
      (h' : Expr.Expands r f f') : Expr.Expands r (.arith op e f) (.arith op e' f')

variable {r : Resolver}

theorem Expr.Expands.isLogical_eq {e e' : Expr} (h : Expr.Expands r e e') :
    e'.isLogical = e.isLogical := by
  cases h with
  | var _ ht he => cases ht <;> cases he <;> rfl
  | _ => rfl

/-! ## Derivations of expanded tokens -/

theorem Makes.expand {t t' : Token} {e : Expr} (h : Makes t e) (ht : Token.Expands r t t') :
    ∃ e', Makes t' e' ∧ Expr.Expands r e e' := by
  cases ht with
  | var hv hd =>
    cases h
    cases hd with
    | word h₁ h₂ h₃ h₄ => exact ⟨_, .ident _, .var hv (.word h₁ h₂ h₃ h₄) (.ident _)⟩
    | number h₁ h₂ h₃ => exact ⟨_, .int _, .var hv (.number h₁ h₂ h₃) (.int _)⟩
  | str s s' =>
    cases h
    exact ⟨_, .str s', .str s s'⟩
  | same ht =>
    refine ⟨e, h, ?_⟩
    cases h with
    | str s => exact .str s s
    | ident name => exact .ident name
    | var name => exact absurd rfl (ht name)
    | _ => exact .literal (by simp)

theorem Joins.expand {k : Chain} {t t' : Token} {e e' f f' g : Expr} (h : Joins k t e f g)
    (ht : Token.Expands r t t') (he : Expr.Expands r e e') (hf : Expr.Expands r f f') :
    ∃ g', Joins k t' e' f' g' ∧ Expr.Expands r g g' := by
  cases h with
  | or => cases ht; exact ⟨_, .or _ _, .or he hf⟩
  | and => cases ht; exact ⟨_, .and _ _, .and he hf⟩
  | add => cases ht; exact ⟨_, .add _ _, .arith he hf⟩
  | sub => cases ht; exact ⟨_, .sub _ _, .arith he hf⟩
  | mul => cases ht; exact ⟨_, .mul _ _, .arith he hf⟩
  | div => cases ht; exact ⟨_, .div _ _, .arith he hf⟩
  | rem => cases ht; exact ⟨_, .rem _ _, .arith he hf⟩

theorem Compares.expand {ts us : List Token} {op : Comparison} (h : Compares ts op)
    (ht : List.Forall₂ (Token.Expands r) ts us) : us = ts := by
  cases h with
  | notElem =>
    obtain _ | ⟨ht, _ | ⟨ht', hn⟩⟩ := ht
    cases hn
    cases ht
    cases ht'
    rfl
  | _ =>
    obtain _ | ⟨ht, hn⟩ := ht
    cases hn
    cases ht
    rfl

theorem forall₂_append_left {α β : Type} {R : α → β → Prop} {xs ys : List α} {zs : List β}
    (h : List.Forall₂ R (xs ++ ys) zs) :
    ∃ us vs, zs = us ++ vs ∧ List.Forall₂ R xs us ∧ List.Forall₂ R ys vs := by
  induction xs generalizing zs with
  | nil => exact ⟨[], zs, rfl, .nil, h⟩
  | cons x xs ih =>
    obtain _ | ⟨hx, h⟩ := h
    obtain ⟨us, vs, rfl, hus, hvs⟩ := ih h
    exact ⟨_, vs, rfl, .cons hx hus, hvs⟩

mutual

theorem Derives.expand {l : Level} {ts : List Token} {e : Expr} {n : Nat} : Derives l ts e n →
    ∀ {us : List Token}, List.Forall₂ (Token.Expands r) ts us →
      ∃ e', Derives l us e' n ∧ Expr.Expands r e e'
  | .chain h, us, hus => by
    obtain ⟨e', h', he⟩ := h.expand hus
    exact ⟨e', .chain h', he⟩
  | .not h, us, hus => by
    obtain _ | ⟨ht, hus⟩ := hus
    cases ht
    obtain ⟨e', h', he⟩ := h.expand hus
    exact ⟨_, .not h', .not he⟩
  | .comparison h, us, hus => by
    obtain ⟨e', h', he⟩ := h.expand hus
    exact ⟨e', .comparison h', he⟩
  | .sum h, us, hus => by
    obtain ⟨e', h', he⟩ := h.expand hus
    exact ⟨e', .sum h', he⟩
  | .compare h hl hne, us, hus => by
    obtain ⟨us₁, us₂, rfl, hus₁, hus₂⟩ := forall₂_append_left hus
    obtain ⟨e', h', he⟩ := h.expand hus₁
    obtain ⟨ls', hl', hls⟩ := hl.expand hus₂
    refine ⟨_, .compare h' hl' ?_, .compare he hls⟩
    rintro rfl
    cases hls
    exact hne rfl
  | .neg h, us, hus => by
    obtain _ | ⟨ht, hus⟩ := hus
    cases ht
    obtain ⟨e', h', he⟩ := h.expand hus
    exact ⟨_, .neg h', .neg he⟩
  | .primary h, us, hus => by
    obtain ⟨e', h', he⟩ := h.expand hus
    exact ⟨e', .primary h', he⟩
  | .single h, us, hus => by
    obtain _ | ⟨ht, hus⟩ := hus
    cases hus
    obtain ⟨e', h', he⟩ := h.expand ht
    exact ⟨e', .single h', he⟩
  | .parens h, us, hus => by
    obtain _ | ⟨ht, hus⟩ := hus
    obtain ⟨us₁, us₂, rfl, hus₁, hus₂⟩ := forall₂_append_left hus
    obtain _ | ⟨ht', hus₂⟩ := hus₂
    cases hus₂
    cases ht
    cases ht'
    obtain ⟨e', h', he⟩ := h.expand hus₁
    exact ⟨e', .parens h', he⟩
  | .empty, us, hus => by
    obtain _ | ⟨ht, _ | ⟨ht', hus⟩⟩ := hus
    cases hus
    cases ht
    cases ht'
    exact ⟨_, .empty, .list .nil⟩
  | .list h, us, hus => by
    obtain _ | ⟨ht, hus⟩ := hus
    obtain ⟨us₁, us₂, rfl, hus₁, hus₂⟩ := forall₂_append_left hus
    obtain _ | ⟨ht', hus₂⟩ := hus₂
    cases hus₂
    cases ht
    cases ht'
    obtain ⟨es', h', hes⟩ := h.expand hus₁
    exact ⟨_, .list h', .list hes⟩

theorem Chained.expand {k : Chain} {ts : List Token} {e : Expr} {i n : Nat} : Chained k ts e i n →
    ∀ {us : List Token}, List.Forall₂ (Token.Expands r) ts us →
      ∃ e', Chained k us e' i n ∧ Expr.Expands r e e'
  | .first hk h, us, hus => by
    obtain ⟨e', h', he⟩ := h.expand hus
    exact ⟨e', .first hk h', he⟩
  | .link hk h hj hr, us, hus => by
    obtain ⟨us₁, us₂, rfl, hus₁, hus₂⟩ := forall₂_append_left hus
    obtain _ | ⟨ht, hus₂⟩ := hus₂
    obtain ⟨e', h', he⟩ := h.expand hus₁
    obtain ⟨f', hr', hf⟩ := hr.expand hus₂
    obtain ⟨g', hj', hg⟩ := hj.expand ht he hf
    exact ⟨g', .link hk h' hj' hr', hg⟩

theorem Compared.expand {ts : List Token} {ls : List (Comparison × Expr)} {n : Nat} :
    Compared ts ls n → ∀ {us : List Token}, List.Forall₂ (Token.Expands r) ts us →
      ∃ ls', Compared us ls' n ∧ List.Forall₂ (Linked (Expr.Expands r)) ls ls'
  | .nil, us, hus => by
    cases hus
    exact ⟨[], .nil, .nil⟩
  | .cons ho h hl, us, hus => by
    obtain ⟨us₁, us', rfl, hus₁, hus'⟩ := forall₂_append_left hus
    obtain ⟨us₂, us₃, rfl, hus₂, hus₃⟩ := forall₂_append_left hus'
    obtain rfl := ho.expand hus₁
    obtain ⟨e', h', he⟩ := h.expand hus₂
    obtain ⟨ls', hl', hls⟩ := hl.expand hus₃
    exact ⟨_, .cons ho h' hl', .cons (.mk he) hls⟩

theorem Listed.expand {ts : List Token} {es : List Expr} {n : Nat} :
    Listed ts es n → ∀ {us : List Token}, List.Forall₂ (Token.Expands r) ts us →
      ∃ es', Listed us es' n ∧ List.Forall₂ (Expr.Expands r) es es'
  | .last h, us, hus => by
    obtain ⟨e', h', he⟩ := h.expand hus
    exact ⟨_, .last h', .cons he .nil⟩
  | .trailing h, us, hus => by
    obtain ⟨us₁, us₂, rfl, hus₁, hus₂⟩ := forall₂_append_left hus
    obtain _ | ⟨ht, hus₂⟩ := hus₂
    cases hus₂
    cases ht
    obtain ⟨e', h', he⟩ := h.expand hus₁
    exact ⟨_, .trailing h', .cons he .nil⟩
  | .cons h hl, us, hus => by
    obtain ⟨us₁, us₂, rfl, hus₁, hus₂⟩ := forall₂_append_left hus
    obtain _ | ⟨ht, hus₂⟩ := hus₂
    cases ht
    obtain ⟨e', h', he⟩ := h.expand hus₁
    obtain ⟨es', hl', hes⟩ := hl.expand hus₂
    exact ⟨_, .cons h' hl', .cons he hes⟩

end

/-! ## Operands do not touch -/

def Token.IsOperand (t : Token) : Prop := ∃ e, Makes t e

def Parted (ts : List Token) : Prop :=
  ts.IsChain fun t u => ¬ (t.IsOperand ∧ u.IsOperand)

theorem Parted.cons {t : Token} {ts : List Token} (h : Parted ts) (ht : ¬ t.IsOperand) :
    Parted (t :: ts) :=
  List.IsChain.cons h fun _ _ hu => ht hu.1

theorem Parted.append {ts us : List Token} (h : Parted ts) (h' : Parted us)
    (hu : ∀ u ∈ us.head?, ¬ u.IsOperand) : Parted (ts ++ us) :=
  List.IsChain.append h h' fun _ _ u hm ho => hu u hm ho.2

theorem Parted.join {ts us : List Token} {t : Token} (h : Parted ts) (h' : Parted us)
    (ht : ¬ t.IsOperand) : Parted (ts ++ t :: us) :=
  h.append (h'.cons ht) fun u hu => by
    obtain rfl : t = u := by simpa using hu
    exact ht

theorem parted_nil : Parted [] := .nil

theorem Joins.not_isOperand {k : Chain} {t : Token} {e e' e'' : Expr} (h : Joins k t e e' e'') :
    ¬ t.IsOperand := by
  rintro ⟨_, hm⟩
  cases h <;> cases hm

theorem Compares.parted {os ts : List Token} {op : Comparison} (h : Compares os op)
    (hts : Parted ts) : Parted (os ++ ts) ∧ ∀ t ∈ (os ++ ts).head?, ¬ t.IsOperand := by
  have hone : ∀ t : Token, ¬ t.IsOperand →
      Parted ([t] ++ ts) ∧ ∀ u ∈ ([t] ++ ts).head?, ¬ u.IsOperand := by
    intro t ht
    refine ⟨hts.cons ht, fun u hu => ?_⟩
    obtain rfl : t = u := by simpa using hu
    exact ht
  cases h with
  | notElem =>
    have hn : ¬ Token.IsOperand .not := by rintro ⟨_, ⟨⟩⟩
    have he : ¬ Token.IsOperand .elem := by rintro ⟨_, ⟨⟩⟩
    refine ⟨(hts.cons he).cons hn, fun u hu => ?_⟩
    obtain rfl : Token.not = u := by simpa using hu
    exact hn
  | _ => exact hone _ (by rintro ⟨_, ⟨⟩⟩)

mutual

theorem Derives.parted {l : Level} {ts : List Token} {e : Expr} {n : Nat} :
    Derives l ts e n → Parted ts
  | .chain h => h.parted
  | .not h => h.parted.cons (by rintro ⟨_, ⟨⟩⟩)
  | .comparison h => h.parted
  | .sum h => h.parted
  | .compare h hl _ => h.parted.append hl.parted.1 hl.parted.2
  | .neg h => h.parted.cons (by rintro ⟨_, ⟨⟩⟩)
  | .primary h => h.parted
  | .single _ => .singleton _
  | .parens h => (h.parted.join parted_nil (by rintro ⟨_, ⟨⟩⟩)).cons (by rintro ⟨_, ⟨⟩⟩)
  | .empty => Parted.cons (.singleton _) (by rintro ⟨_, ⟨⟩⟩)
  | .list h => (h.parted.join parted_nil (by rintro ⟨_, ⟨⟩⟩)).cons (by rintro ⟨_, ⟨⟩⟩)

theorem Chained.parted {k : Chain} {ts : List Token} {e : Expr} {i n : Nat} :
    Chained k ts e i n → Parted ts
  | .first _ h => h.parted
  | .link _ h hj h' => h.parted.join h'.parted hj.not_isOperand

theorem Compared.parted {ts : List Token} {ls : List (Comparison × Expr)} {n : Nat} :
    Compared ts ls n → Parted ts ∧ ∀ t ∈ ts.head?, ¬ t.IsOperand
  | .nil => ⟨parted_nil, by simp⟩
  | .cons ho h hl => ho.parted (h.parted.append hl.parted.1 hl.parted.2)

theorem Listed.parted {ts : List Token} {es : List Expr} {n : Nat} : Listed ts es n → Parted ts
  | .last h => h.parted
  | .trailing h => h.parted.join parted_nil (by rintro ⟨_, ⟨⟩⟩)
  | .cons h hl => h.parted.join hl.parted (by rintro ⟨_, ⟨⟩⟩)

end

end GuardTree.Formula
