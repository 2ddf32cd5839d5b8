import GuardTree.Json.Reader
import GuardTree.Json.Writer
import GuardTree.Proofs.Decimal.Digits

/-! # Leaves of a tree in JSON

The text of a leaf is read as that leaf, whatever follows it (`leaf?_scalar`); after a number there
must be nothing that goes on with it (`EndsNumber`). Floating-point numbers are left out, since not
all of them are read as the number that was written.
-/

namespace GuardTree.Json

set_option autoImplicit false

open Decimal

/-! ## Numbers -/

/-- A text that no number goes on with. -/
def EndsNumber (cs : List Char) : Prop :=
  ∀ c ∈ cs.head?, c.isDigit = false ∧ c ≠ '.' ∧ c ≠ 'e' ∧ c ≠ 'E'

variable {rest : List Char}

theorem endsNumber_nil : EndsNumber [] := fun _ hc => nomatch hc

theorem endsNumber_cons {c : Char} (hd : c.isDigit = false) (hc : c ∉ ['.', 'e', 'E'])
    (cs : List Char) : EndsNumber (c :: cs) := by
  intro d hd'
  obtain rfl : c = d := Option.some.inj hd'
  simpa [hd] using hc

theorem digits?_toDigits (n : Nat) (hr : EndsNumber rest) :
    digits? (Nat.toDigits 10 n ++ rest) = some (Nat.toDigits 10 n, rest) := by
  have hdigit : ∀ c ∈ Nat.toDigits 10 n, c.isDigit = true := fun c hc => isDigit_of_mem_toDigits hc
  have htake : (rest.takeWhile Char.isDigit) = [] := by
    cases rest with
    | nil => rfl
    | cons c rest => rw [List.takeWhile_cons, (hr c rfl).1]; rfl
  have hdrop : (rest.dropWhile Char.isDigit) = rest := by
    cases rest with
    | nil => rfl
    | cons c rest => rw [List.dropWhile_cons, (hr c rfl).1]; rfl
  rw [digits?, List.takeWhile_append_of_pos hdigit, List.dropWhile_append_of_pos hdigit, htake,
    hdrop, List.append_nil]
  simp

theorem whole?_toDigits (n : Nat) (hr : EndsNumber rest) :
    whole? (Nat.toDigits 10 n ++ rest) = some (Nat.toDigits 10 n, rest) := by
  rw [whole?, digits?_toDigits n hr]
  split
  case h_1 d ds r h =>
    -- A leading zero is the whole of it.
    obtain ⟨hds, -⟩ := Prod.mk.inj (Option.some.inj h)
    obtain rfl := eq_zero_of_head?_toDigits (n := n) (by rw [hds]; rfl)
    cases hds
  case h_2 h => exact h.symm
  case h_3 h => cases h

theorem places?_of_endsNumber (hr : EndsNumber rest) : places? rest = some (none, rest) := by
  unfold places?
  split
  · exact absurd rfl (hr '.' rfl).2.1
  · rfl

theorem exponent?_of_endsNumber (hr : EndsNumber rest) : exponent? rest = some (none, rest) := by
  cases rest with
  | nil => rfl
  | cons c rest =>
    obtain ⟨-, -, he, hE⟩ := hr c rfl
    simp [exponent?, he, hE]

theorem numeral?_toDigits (negative : Bool) (n : Nat) (hr : EndsNumber rest) :
    numeral? negative (Nat.toDigits 10 n ++ rest) =
      some (⟨negative, Nat.toDigits 10 n, none, none⟩, rest) := by
  simp only [numeral?, whole?_toDigits n hr, places?_of_endsNumber hr, exponent?_of_endsNumber hr,
    Option.bind_eq_bind, Option.bind_some]
  rfl

theorem scalar?_toDigits {n : Nat} (h : n < 2 ^ 63) :
    Numeral.scalar? ⟨false, Nat.toDigits 10 n, none, none⟩ = some (.integer (Int64.ofNat n)) := by
  rw [Numeral.scalar?, natOfDigits_toDigits]
  exact if_pos (by simpa using h)

theorem scalar?_neg_toDigits {n : Nat} (hpos : 0 < n) (h : n ≤ 2 ^ 63) :
    Numeral.scalar? ⟨true, Nat.toDigits 10 n, none, none⟩ =
      some (.integer (Int64.ofInt (-Int.ofNat n))) := by
  rw [Numeral.scalar?, natOfDigits_toDigits]
  refine (if_neg (by simp)).trans (if_pos ?_)
  simpa using And.intro hpos h

theorem number?_toString (i : Int64) (hr : EndsNumber rest) :
    number? ((toString i.toInt).toList ++ rest) = some (.integer i, rest) := by
  obtain ⟨n, ht, hlt, hi⟩ | ⟨n, ht, hpos, hle, hi⟩ := exists_toDigits i
  · obtain ⟨c, r, hc, hd⟩ := toDigits_eq_cons n
    have hsign : c ≠ '-' := by
      rintro rfl
      cases hd
    have hread := numeral?_toDigits false n hr
    rw [ht, hi]
    rw [hc, List.cons_append] at hread ⊢
    unfold number?
    split
    case h_1 r' h => exact absurd (List.cons.inj h).1 hsign
    case h_2 =>
      rw [hread, ← hc]
      simp only [Option.bind_eq_bind, Option.bind_some, scalar?_toDigits hlt]
      rfl
  · rw [ht, hi, List.cons_append]
    simp only [number?, numeral?_toDigits true n hr, Option.bind_eq_bind, Option.bind_some,
      scalar?_neg_toDigits hpos hle]
    rfl

/-! ## Strings -/

theorem hexValue?_hexDigit {n : Nat} (h : n < 16) : Text.hexValue? (hexDigit n) = some n := by
  revert n
  decide

/-- A control character is read from the escape by its code. -/
theorem unicodeEscape?_of_lt {c : Char} (h : c.toNat < 32) (r : List Char) :
    unicodeEscape? ('0' :: '0' :: hexDigit (c.toNat / 16) :: hexDigit (c.toNat % 16) :: r) =
      some (c, r) := by
  have hzero : Text.hexValue? '0' = some 0 := rfl
  have hcode : ((0 * 16 + 0) * 16 + c.toNat / 16) * 16 + c.toNat % 16 = c.toNat := by omega
  simp only [unicodeEscape?, hex4?, hzero, hexValue?_hexDigit (by omega : c.toNat / 16 < 16),
    hexValue?_hexDigit (by omega : c.toNat % 16 < 16), Option.bind_eq_bind, Option.bind_some,
    Option.pure_def, hcode]
  rw [if_neg (by omega), if_neg (by omega), Char.ofNat_toNat]

theorem stringBody?_escape {cs r : List Char} {c : Char} (h : escape? cs = some (c, r)) :
    stringBody? ('\\' :: cs) = (stringBody? r).map fun (s, rest) => (c :: s, rest) := by
  rw [stringBody?, if_neg (by decide), if_pos rfl]
  split
  · simp_all
  · simp_all

theorem stringBody?_stringChar (c : Char) (r : List Char) :
    stringBody? (stringChar c ++ r) = (stringBody? r).map fun (s, rest) => (c :: s, rest) := by
  unfold stringChar
  split
  case h_8 hq hb _ _ _ _ _ =>
    split
    case isTrue h => exact stringBody?_escape (unicodeEscape?_of_lt h r)
    case isFalse h => rw [List.singleton_append, stringBody?, if_neg hq, if_neg hb, if_neg h]
  all_goals exact stringBody?_escape rfl

theorem stringBody?_flatMap (s rest : List Char) :
    stringBody? (s.flatMap stringChar ++ '"' :: rest) = some (s, rest) := by
  induction s with
  | nil => rw [List.flatMap_nil, List.nil_append, stringBody?, if_pos rfl]
  | cons c s ih =>
    rw [List.flatMap_cons, List.append_assoc, stringBody?_stringChar, ih]
    rfl

/-! ## Leaves -/

/-- The text of an integer starts with a digit or a sign and ends with a digit. -/
theorem toString_eq_cons (i : Int64) :
    ∃ c r, (toString i.toInt).toList = c :: r ∧ (c.isDigit = true ∨ c = '-') := by
  obtain ⟨n, ht, -⟩ | ⟨n, ht, -⟩ := exists_toDigits i
  · obtain ⟨c, r, hc, hd⟩ := toDigits_eq_cons n
    exact ⟨c, r, ht.trans hc, .inl hd⟩
  · exact ⟨'-', _, ht, .inr rfl⟩

theorem toString_eq_append (i : Int64) :
    ∃ r c, (toString i.toInt).toList = r ++ [c] ∧ c.isDigit = true := by
  obtain ⟨s, n, ht⟩ : ∃ s n, (toString i.toInt).toList = s ++ Nat.toDigits 10 n := by
    obtain ⟨n, ht, -⟩ | ⟨n, ht, -⟩ := exists_toDigits i
    · exact ⟨[], n, ht⟩
    · exact ⟨['-'], n, ht⟩
  have hne : Nat.toDigits 10 n ≠ [] := Nat.toDigits_ne_nil
  refine ⟨s ++ (Nat.toDigits 10 n).dropLast, (Nat.toDigits 10 n).getLast hne, ?_,
    isDigit_of_mem_toDigits (List.getLast_mem hne)⟩
  rw [ht, List.append_assoc, List.dropLast_concat_getLast hne]

/-- A leaf starts with a character that tells it from blanks, lists and mappings. -/
theorem scalar_eq_cons {s : Scalar} (hs : ∀ x, s ≠ .float x) :
    ∃ c r, scalar s = c :: r ∧ isBlank c = false ∧ c ∉ ['[', ']', '\x7b', '\x7d'] := by
  cases s with
  | null => exact ⟨'n', _, rfl, by decide⟩
  | bool b =>
    cases b with
    | false => exact ⟨'f', _, rfl, by decide⟩
    | true => exact ⟨'t', _, rfl, by decide⟩
  | integer i =>
    obtain ⟨c, r, hc, hd | rfl⟩ := toString_eq_cons i
    · exact ⟨c, r, hc, forall_isDigit (p := fun c => isBlank c = false ∧ c ∉ _) (by decide) hd⟩
    · exact ⟨'-', r, hc, by decide⟩
  | float x => exact absurd rfl (hs x)
  | string s => exact ⟨'"', _, rfl, by decide⟩

/-- A leaf does not end in white space. -/
theorem scalar_eq_append {s : Scalar} (hs : ∀ x, s ≠ .float x) :
    ∃ r c, scalar s = r ++ [c] ∧ Text.isSpace c = false := by
  cases s with
  | null => exact ⟨['n', 'u', 'l'], 'l', rfl, by decide⟩
  | bool b =>
    cases b with
    | false => exact ⟨['f', 'a', 'l', 's'], 'e', rfl, by decide⟩
    | true => exact ⟨['t', 'r', 'u'], 'e', rfl, by decide⟩
  | integer i =>
    obtain ⟨r, c, hc, hd⟩ := toString_eq_append i
    exact ⟨r, c, hc, forall_isDigit (p := fun c => Text.isSpace c = false) (by decide) hd⟩
  | float x => exact absurd rfl (hs x)
  | string s => exact ⟨_, '"', rfl, by decide⟩

theorem leaf?_toString (i : Int64) (rest : List Char) :
    leaf? ((toString i.toInt).toList ++ rest) = number? ((toString i.toInt).toList ++ rest) := by
  obtain ⟨c, r, hc, hd⟩ := toString_eq_cons i
  have hc' : c ∉ ['"', 'n', 't', 'f'] := by
    obtain hd | rfl := hd
    · exact forall_isDigit (p := (· ∉ _)) (by decide) hd
    · decide
  simp only [List.mem_cons, List.not_mem_nil, or_false, not_or] at hc'
  rw [hc, List.cons_append]
  unfold leaf?
  split <;> simp_all

/-- A leaf is read from its text. -/
theorem leaf?_scalar {s : Scalar} (hs : ∀ x, s ≠ .float x) (hr : EndsNumber rest) :
    leaf? (scalar s ++ rest) = some (s, rest) := by
  cases s with
  | null => rfl
  | bool b => cases b <;> rfl
  | integer i => exact (leaf?_toString i rest).trans (number?_toString i hr)
  | float x => exact absurd rfl (hs x)
  | string s =>
    have hbody := stringBody?_flatMap s.toList rest
    simp [scalar, string, leaf?, hbody]

end GuardTree.Json
