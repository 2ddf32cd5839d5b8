import GuardTree.Proofs.Decimal.Digits
import GuardTree.Yaml.Schema

/-! # Keys that are no texts

A scalar that is a key has to become a text. `Resolved.key?_eq_some_iff` says which one, and only
integers of more than 64 bits have none (`Resolved.key?_eq_none_iff`). However null, a truth value
or an integer is written as a key, its text is read again as the same (`resolve_key`).
-/

namespace GuardTree.Yaml

set_option autoImplicit false

open Decimal

variable {text key : String} {resolved : Resolved} {n : Int} {cs : List Char}

theorem Resolved.key?_eq_some_iff :
    resolved.key? text = some key ↔
      resolved = .null ∧ key = "null" ∨
        (∃ b, resolved = .bool b ∧ key = bif b then "true" else "false") ∨
        (∃ n, resolved = .integer n ∧ key = toString n) ∨
        (∃ x, resolved = .float x ∧ key = Decimal.plain.write x) ∨
        resolved = .text ∧ key = text := by
  have hbool : ∀ b : Bool, toString b = bif b then "true" else "false" := by
    intro b
    cases b <;> rfl
  cases resolved <;> simp [key?, hbool, eq_comm]

theorem Resolved.key?_eq_none_iff : resolved.key? text = none ↔ resolved = .wide := by
  cases resolved <;> simp [key?]

/-! ## How an integer is written -/

theorem digit?_of_isDigit {c : Char} (h : c.isDigit = true) :
    digit? 10 c = some (c.toNat - '0'.toNat) :=
  forall_isDigit (p := fun c => digit? 10 c = some (c.toNat - '0'.toNat)) (by decide) h

theorem foldlM_digit? (h : ∀ c ∈ cs, c.isDigit = true) (start : Nat) :
    cs.foldlM (fun n c => (digit? 10 c).map (10 * n + ·)) start =
      some (cs.foldl (fun n c => 10 * n + (c.toNat - '0'.toNat)) start) := by
  induction cs generalizing start with
  | nil => rfl
  | cons c cs ih =>
    rw [List.forall_mem_cons] at h
    rw [List.foldlM_cons, digit?_of_isDigit h.1]
    exact ih h.2 _

theorem digits?_of_isDigit (hne : cs ≠ []) (h : ∀ c ∈ cs, c.isDigit = true) :
    digits? 10 cs = some (natOfDigits cs) := by
  rw [digits?, if_neg (by simpa using hne), foldlM_digit? h, natOfDigits]

theorem hasSpareZero_toDigits (m : Nat) : hasSpareZero (Nat.toDigits 10 m) = false := by
  obtain ⟨c, r, hc, hd⟩ := toDigits_eq_cons m
  have hsign : dropSign (Nat.toDigits 10 m) = Nat.toDigits 10 m := by
    rw [hc]
    unfold dropSign
    split
    case h_1 h =>
      cases h
      cases hd
    case h_2 h =>
      cases h
      cases hd
    case h_3 => rfl
  rw [hasSpareZero, hsign]
  split
  case h_1 d r' h =>
    -- A leading zero is the whole of it.
    obtain rfl := eq_zero_of_head?_toDigits (n := m) (by rw [h]; rfl)
    cases h
  case h_2 => rfl

theorem magnitude?_toDigits (m : Nat) : magnitude? (Nat.toDigits 10 m) = some m := by
  have hdigit : ∀ c ∈ Nat.toDigits 10 m, c.isDigit = true := fun c => isDigit_of_mem_toDigits
  have hbase : ∀ (c : Char) (r : List Char), c.isDigit = false →
      Nat.toDigits 10 m ≠ '0' :: c :: r := by
    intro c r hc h
    have htrue := hdigit c (by simp [h])
    rw [hc] at htrue
    cases htrue
  unfold magnitude?
  split
  case h_1 h => exact absurd h (hbase _ _ rfl)
  case h_2 h => exact absurd h (hbase _ _ rfl)
  case h_3 h => exact absurd h (hbase _ _ rfl)
  case h_4 =>
    rw [hasSpareZero_toDigits, if_neg Bool.false_ne_true,
      digits?_of_isDigit Nat.toDigits_ne_nil hdigit, natOfDigits_toDigits]

theorem integer?_range (h : integer? cs = some (.integer n)) : -2 ^ 63 ≤ n ∧ n < 2 ^ 64 := by
  have hlow : Nat.pow 2 63 = 2 ^ 63 := rfl
  have hhigh : Nat.pow 2 64 = 2 ^ 64 := rfl
  unfold integer? at h
  split at h
  · obtain ⟨m, -, h⟩ := Option.bind_eq_some_iff.1 h
    split at h
    · cases h
      rw [Int.ofNat_eq_natCast]
      omega
    · split at h <;> cases h
  · obtain ⟨m, -, h⟩ := Option.bind_eq_some_iff.1 h
    split at h
    · cases h
      omega
    · split at h <;> cases h

/-- An integer of 64 bits is read from its digits. -/
theorem integer?_toString (hlow : -2 ^ 63 ≤ n) (hhigh : n < 2 ^ 64) :
    integer? (toString n).toList = some (.integer n) := by
  have hlow' : Nat.pow 2 63 = 2 ^ 63 := rfl
  have hhigh' : Nat.pow 2 64 = 2 ^ 64 := rfl
  cases n with
  | ofNat m =>
    have hsize : m < Nat.pow 2 64 := by
      rw [Int.ofNat_eq_natCast] at hhigh
      omega
    obtain ⟨c, r, hc, hd⟩ := toDigits_eq_cons m
    have hread := magnitude?_toDigits m
    rw [toList_toString_ofNat]
    rw [hc] at hread ⊢
    unfold integer?
    split
    case h_1 h =>
      cases h
      cases hd
    case h_2 =>
      dsimp only
      split
      case h_1 h =>
        cases h
        cases hd
      case h_2 =>
        rw [hread, Option.bind_some, if_pos hsize]
        rfl
  | negSucc m =>
    have hsize : m + 1 ≤ Nat.pow 2 63 := by
      rw [Int.negSucc_eq] at hlow
      omega
    rw [toList_toString_negSucc, integer?, magnitude?_toDigits, Option.bind_some, if_pos hsize]
    rfl

/-! ## Keys are read again -/

/-- What has the form of an integer, and does not start like a word, is one. -/
theorem resolve_of_integer? {c : Char} {r : List Char} (hc : text.toList = c :: r)
    (hstart : c = '-' ∨ c.isDigit = true) (h : integer? text.toList = some resolved) :
    resolve text = resolved := by
  have hword : ∀ word : String, (∀ d ∈ word.toList.head?, d ≠ '-' ∧ d.isDigit = false) →
      text ≠ word := by
    rintro word hword rfl
    obtain ⟨hsign, hdigit⟩ := hword c (by rw [hc]; rfl)
    obtain h | h := hstart
    · exact hsign h
    · rw [hdigit] at h
      cases h
  have hempty : text.isEmpty = false := by
    rw [← Bool.not_eq_true, String.isEmpty_iff]
    exact hword "" (by simp)
  have hnull : isNull text = false := by
    simp [isNull, hword "null" (by simp), hword "Null" (by simp), hword "NULL" (by simp),
      hword "~" (by simp)]
  have hbool : bool? text = none := by
    simp [bool?, hword "true" (by simp), hword "True" (by simp), hword "TRUE" (by simp),
      hword "false" (by simp), hword "False" (by simp), hword "FALSE" (by simp)]
  rw [resolve, hempty, hnull, hbool, h]
  rfl

theorem resolve_toString (hlow : -2 ^ 63 ≤ n) (hhigh : n < 2 ^ 64) :
    resolve (toString n) = .integer n := by
  have hread := integer?_toString hlow hhigh
  cases n with
  | ofNat m =>
    obtain ⟨c, r, hc, hd⟩ := toDigits_eq_cons m
    exact resolve_of_integer? ((toList_toString_ofNat m).trans hc) (.inr hd) hread
  | negSucc m => exact resolve_of_integer? (toList_toString_negSucc m) (.inl rfl) hread

theorem resolve_range (h : resolve text = .integer n) : -2 ^ 63 ≤ n ∧ n < 2 ^ 64 := by
  unfold resolve at h
  split at h
  case isTrue => cases h
  case isFalse =>
    split at h
    case h_1 => cases h
    case h_2 =>
      split at h
      case h_1 hi =>
        cases h
        exact integer?_range hi
      case h_2 =>
        split at h
        · cases h
        · split at h <;> cases h

theorem resolveTagged_range {tag : Option Tag} {plain : Bool}
    (h : resolveTagged tag plain text = some (.integer n)) : -2 ^ 63 ≤ n ∧ n < 2 ^ 64 := by
  unfold resolveTagged at h
  split at h
  case h_1 =>
    obtain h := Option.some.inj h
    split at h
    · exact resolve_range h
    · cases h
  case h_2 => cases h
  case h_3 =>
    split at h <;> cases h
  case h_4 =>
    obtain ⟨_, -, h⟩ := Option.map_eq_some_iff.1 h
    cases h
  case h_5 => exact integer?_range h
  case h_6 =>
    obtain ⟨_, -, h⟩ := Option.map_eq_some_iff.1 h
    cases h
  case h_7 => cases h

/-- **The text of a key keeps what the key is.** A key that denotes null, a truth value or an integer,
in whatever form and with whatever tag, becomes a text that denotes the same. -/
theorem resolve_key {tag : Option Tag} {plain : Bool}
    (hr : resolveTagged tag plain text = some resolved) (hk : resolved.key? text = some key)
    (hfloat : ∀ x, resolved ≠ .float x) (htext : resolved ≠ .text) : resolve key = resolved := by
  obtain ⟨rfl, rfl⟩ | ⟨b, rfl, rfl⟩ | ⟨n, rfl, rfl⟩ | ⟨x, rfl, -⟩ | ⟨rfl, -⟩ :=
    Resolved.key?_eq_some_iff.1 hk
  · cbv
  · cases b <;> cbv
  · obtain ⟨hlow, hhigh⟩ := resolveTagged_range hr
    exact resolve_toString hlow hhigh
  · exact absurd rfl (hfloat x)
  · exact absurd rfl htext

end GuardTree.Yaml
