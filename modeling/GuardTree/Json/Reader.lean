import GuardTree.Json.Number
import GuardTree.Reduction.Failure
import GuardTree.Text.Hex

/-! # Reading JSON

The reader is strict: no comments, no trailing commas, no raw control characters in strings, no
halves of surrogate pairs. An object becomes the map collected from its pairs, so of several values
for a key the last one counts, at the place of the first. Arrays and objects nest at most
`maxNesting` deep.

* `value`, `items`, `pairs`: what is read at the front of a text, and what follows it.
* `read`: the tree of a whole text.
* `readMapping`: the entries of a whole text that is an object.
-/

namespace GuardTree.Json

set_option autoImplicit false

def maxNesting : Nat := 127

def isBlank (c : Char) : Bool := c == ' ' || c == '\n' || c == '\t' || c == '\r'

def skipBlanks (cs : List Char) : List Char := cs.dropWhile isBlank

theorem skipBlanks_length_le (cs : List Char) : (skipBlanks cs).length ≤ cs.length :=
  (List.dropWhile_suffix isBlank).length_le

/-! ## Strings -/

def hex4? : List Char → Option (Nat × List Char)
  | a :: b :: c :: d :: r => do
    let a ← Text.hexValue? a
    let b ← Text.hexValue? b
    let c ← Text.hexValue? c
    let d ← Text.hexValue? d
    return (((a * 16 + b) * 16 + c) * 16 + d, r)
  | _ => none

/-- The character of a `\u` escape whose `\u` has been taken. A character beyond the first plane is
written as a surrogate pair, each half in an escape of its own. -/
def unicodeEscape? (cs : List Char) : Option (Char × List Char) := do
  let (n, r) ← hex4? cs
  if 0xDC00 ≤ n ∧ n ≤ 0xDFFF then none
  else if 0xD800 ≤ n ∧ n ≤ 0xDBFF then
    match r with
    | '\\' :: 'u' :: r =>
      let (m, r) ← hex4? r
      if 0xDC00 ≤ m ∧ m ≤ 0xDFFF then
        some (Char.ofNat ((n - 0xD800) * 1024 + (m - 0xDC00) + 0x10000), r)
      else none
    | _ => none
  else some (Char.ofNat n, r)

/-- The character of an escape whose backslash has been taken. -/
def escape? : List Char → Option (Char × List Char)
  | '"' :: r => some ('"', r)
  | '\\' :: r => some ('\\', r)
  | '/' :: r => some ('/', r)
  | 'b' :: r => some ('\x08', r)
  | 'f' :: r => some ('\x0c', r)
  | 'n' :: r => some ('\n', r)
  | 'r' :: r => some ('\r', r)
  | 't' :: r => some ('\t', r)
  | 'u' :: r => unicodeEscape? r
  | _ => none

theorem hex4?_length_lt {cs r : List Char} {n : Nat} (h : hex4? cs = some (n, r)) :
    r.length < cs.length := by
  unfold hex4? at h
  split at h
  · simp only [Option.bind_eq_bind, Option.bind_eq_some_iff] at h
    obtain ⟨_, _, _, _, _, _, _, _, h⟩ := h
    cases h
    simp only [List.length_cons]
    omega
  · cases h

theorem unicodeEscape?_length_lt {cs r : List Char} {c : Char}
    (h : unicodeEscape? cs = some (c, r)) : r.length < cs.length := by
  simp only [unicodeEscape?, Option.bind_eq_bind, Option.bind_eq_some_iff] at h
  obtain ⟨⟨n, r₁⟩, h₁, h⟩ := h
  have hlt := hex4?_length_lt h₁
  dsimp only at h
  split at h
  · cases h
  · split at h
    · split at h
      · simp only [Option.bind_eq_some_iff] at h
        obtain ⟨⟨m, r₂⟩, h₂, h⟩ := h
        have := hex4?_length_lt h₂
        split at h
        · obtain ⟨-, rfl⟩ := Prod.mk.inj (Option.some.inj h)
          simp only [List.length_cons] at hlt ⊢
          omega
        · cases h
      · cases h
    · cases h
      exact hlt

theorem escape?_length_lt {cs r : List Char} {c : Char} (h : escape? cs = some (c, r)) :
    r.length < cs.length := by
  unfold escape? at h
  split at h
  case h_9 =>
    have := unicodeEscape?_length_lt h
    simp only [List.length_cons]
    omega
  case h_10 => cases h
  all_goals
    cases h
    simp

/-- The characters of a string whose opening quote has been taken, and what follows its closing
quote. -/
def stringBody? : List Char → Option (List Char × List Char)
  | [] => none
  | c :: r =>
    if c = '"' then some ([], r)
    else if c = '\\' then
      match _h : escape? r with
      | none => none
      | some (e, r') => (stringBody? r').map fun (s, rest) => (e :: s, rest)
    else if c.toNat < 32 then none
    else (stringBody? r).map fun (s, rest) => (c :: s, rest)
termination_by cs => cs.length
decreasing_by
  · have := escape?_length_lt _h
    simp only [List.length_cons]
    omega
  · simp

theorem stringBody?_length_lt {cs s r : List Char} (h : stringBody? cs = some (s, r)) :
    r.length < cs.length := by
  fun_induction stringBody? cs generalizing s r with
  | case1 => cases h
  | case2 r' =>
    cases h
    simp
  | case3 r' _ he => cases h
  | case4 r' e rest he _ ih =>
    obtain ⟨⟨s', r₁⟩, h₁, hs⟩ := Option.map_eq_some_iff.1 h
    cases hs
    have := ih h₁
    have := escape?_length_lt he
    simp only [List.length_cons]
    omega
  | case5 => cases h
  | case6 c r' _ _ _ ih =>
    obtain ⟨⟨s', r₁⟩, h₁, hs⟩ := Option.map_eq_some_iff.1 h
    cases hs
    have := ih h₁
    simp only [List.length_cons]
    omega

/-! ## Values -/

/-- A result, and a text shorter than `n` characters that follows it. -/
abbrev Front (α : Type) (n : Nat) := { p : α × List Char // p.2.length < n }

/-- Takes a word off the front of a text. -/
def word? (word cs : List Char) : Option (List Char) :=
  if word.isPrefixOf cs then some (cs.drop word.length) else none

theorem word?_length_lt {word cs r : List Char} (hw : word ≠ []) (h : word? word cs = some r) :
    r.length < cs.length := by
  unfold word? at h
  split at h
  · rename_i hp
    cases h
    have := (List.isPrefixOf_iff_prefix.1 hp).length_le
    have := List.length_pos_iff.2 hw
    simp only [List.length_drop]
    omega
  · cases h

/-- The leaf at the front of a text that is neither an array nor an object. -/
def leaf? (cs : List Char) : Option (Scalar × List Char) :=
  match cs with
  | '"' :: r => (stringBody? r).map fun (s, rest) => (.string (String.ofList s), rest)
  | 'n' :: _ => (word? "null".toList cs).map fun r => (.null, r)
  | 't' :: _ => (word? "true".toList cs).map fun r => (.bool true, r)
  | 'f' :: _ => (word? "false".toList cs).map fun r => (.bool false, r)
  | cs => number? cs

theorem leaf?_length_lt {cs r : List Char} {s : Scalar} (h : leaf? cs = some (s, r)) :
    r.length < cs.length := by
  unfold leaf? at h
  split at h
  case h_1 =>
    obtain ⟨⟨s', r₁⟩, h₁, hs⟩ := Option.map_eq_some_iff.1 h
    cases hs
    have := stringBody?_length_lt h₁
    simp only [List.length_cons]
    omega
  case h_5 => exact number?_length_lt h
  all_goals
    obtain ⟨r₁, h₁, hs⟩ := Option.map_eq_some_iff.1 h
    cases hs
    exact word?_length_lt (by decide) h₁

mutual

/-- The tree at the front of a text, blanks before it being skipped; `room` is how deep it may
nest. -/
def value (room : Nat) (cs : List Char) : Option (Front Node cs.length) :=
  match _h : skipBlanks cs with
  | '[' :: r =>
    match room with
    | 0 => none
    | room + 1 =>
      match _h' : skipBlanks r with
      | ']' :: r' => some ⟨(.list [], r'), by
          have := skipBlanks_length_le cs
          have := skipBlanks_length_le r
          simp_all only [List.length_cons]
          omega⟩
      | _ => do
        let ⟨(ns, r'), hr'⟩ ← items room r
        return ⟨(.list ns, r'), by
          have := skipBlanks_length_le cs
          simp_all only [List.length_cons]
          omega⟩
  | '\x7b' :: r =>
    match room with
    | 0 => none
    | room + 1 =>
      match _h' : skipBlanks r with
      | '\x7d' :: r' => some ⟨(.mapping [], r'), by
          have := skipBlanks_length_le cs
          have := skipBlanks_length_le r
          simp_all only [List.length_cons]
          omega⟩
      | _ => do
        let ⟨(ps, r'), hr'⟩ ← pairs room r
        return ⟨(.ofMap (.ofList ps), r'), by
          have := skipBlanks_length_le cs
          simp_all only [List.length_cons]
          omega⟩
  | r =>
    match _h' : leaf? r with
    | none => none
    | some (s, r') => some ⟨(.scalar s, r'), by
        have := skipBlanks_length_le cs
        have := leaf?_length_lt _h'
        simp_all only
        omega⟩
termination_by (cs.length, 0)
decreasing_by
  all_goals
    have := skipBlanks_length_le cs
    simp_all only [List.length_cons]
    exact Prod.Lex.left _ _ (by omega)

/-- The items of an array up to its closing bracket, at least one. -/
def items (room : Nat) (cs : List Char) : Option (Front (List Node) cs.length) := do
  let ⟨(n, r), hr⟩ ← value room cs
  match _h : skipBlanks r with
  | ']' :: r' => some ⟨([n], r'), by
      have := skipBlanks_length_le r
      simp_all only [List.length_cons]
      omega⟩
  | ',' :: r' =>
    let ⟨(ns, r''), hr'⟩ ← items room r'
    return ⟨(n :: ns, r''), by
      have := skipBlanks_length_le r
      simp_all only [List.length_cons]
      omega⟩
  | _ => none
termination_by (cs.length, 1)
decreasing_by
  · exact Prod.Lex.right _ (by decide)
  · have := skipBlanks_length_le r
    simp_all only [List.length_cons]
    exact Prod.Lex.left _ _ (by omega)

/-- The pairs of an object up to its closing brace, at least one. -/
def pairs (room : Nat) (cs : List Char) : Option (Front (List (String × Node)) cs.length) :=
  match _h : skipBlanks cs with
  | '"' :: r =>
    match _h₁ : stringBody? r with
    | none => none
    | some (key, r₁) =>
      match _h₂ : skipBlanks r₁ with
      | ':' :: r₂ => do
        let ⟨(n, r₃), h₃⟩ ← value room r₂
        match _h₄ : skipBlanks r₃ with
        | '\x7d' :: r₄ => some ⟨([(String.ofList key, n)], r₄), by
            have := skipBlanks_length_le cs
            have := stringBody?_length_lt _h₁
            have := skipBlanks_length_le r₁
            have := skipBlanks_length_le r₃
            simp_all only [List.length_cons]
            omega⟩
        | ',' :: r₄ =>
          let ⟨(ps, r₅), h₅⟩ ← pairs room r₄
          return ⟨((String.ofList key, n) :: ps, r₅), by
            have := skipBlanks_length_le cs
            have := stringBody?_length_lt _h₁
            have := skipBlanks_length_le r₁
            have := skipBlanks_length_le r₃
            simp_all only [List.length_cons]
            omega⟩
        | _ => none
      | _ => none
  | _ => none
termination_by (cs.length, 0)
decreasing_by
  · have := skipBlanks_length_le cs
    have := stringBody?_length_lt _h₁
    have := skipBlanks_length_le r₁
    simp_all only [List.length_cons]
    exact Prod.Lex.left _ _ (by omega)
  · have := skipBlanks_length_le cs
    have := stringBody?_length_lt _h₁
    have := skipBlanks_length_le r₁
    have := skipBlanks_length_le r₃
    simp_all only [List.length_cons]
    exact Prod.Lex.left _ _ (by omega)

end

/-! ## Whole texts -/

/-- The tree at the front of a text and what follows it, blanks skipped. -/
def front (text : String) : Option (Node × List Char) :=
  (value maxNesting text.toList).map fun p => (p.1.1, skipBlanks p.1.2)

def read (text : String) : Except JsonFault Node :=
  match front text with
  | some (n, []) => .ok n
  | _ => .error .malformed

/-- The mapping that a text denotes. A first value of another kind is told apart from malformed
text, whatever follows it. -/
def readMapping (text : String) : Except JsonFault (OrderedMap Node) :=
  match front text with
  | some (.mapping entries, []) => .ok (.ofList entries)
  | some (.mapping _, _ :: _) => .error .malformed
  | some (n, _) => .error (.notMapping n.kind)
  | none => .error .malformed

end GuardTree.Json
