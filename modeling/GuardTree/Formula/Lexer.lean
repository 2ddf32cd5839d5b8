import GuardTree.Decimal.Reader
import GuardTree.Formula.Error
import GuardTree.Text.Size

/-! # From text to tokens

`cut c r` takes one token off a text that starts with `c`, which is no white space, and goes on
with `r`. The token's further characters and what is left make up `r` again (`cut_append`), so
`lexemes` ends, and the offset of a token is the size of what stands before it.
-/

namespace GuardTree.Formula

set_option autoImplicit false

open Text

/-- A token, its characters after the first one, and the text after it. -/
structure Cut where
  token : Token
  more : List Char
  rest : List Char

/-! ## Numbers -/

/-- The characters that continue a number, and what follows them. A point is taken once and only
before an exponent; a sign only right after `e` or `E`. -/
def numberTail (pointAllowed : Bool) (previous : Char) : List Char → List Char × List Char
  | [] => ([], [])
  | c :: r =>
    if c.isDigit || (c == '.' && pointAllowed) || c == 'e' || c == 'E' ||
        ((c == '+' || c == '-') && (previous == 'e' || previous == 'E')) then
      let pointStays := pointAllowed && !(c == '.' || c == 'e' || c == 'E')
      let tail := numberTail pointStays c r
      (c :: tail.1, tail.2)
    else ([], c :: r)

def maxInt : Nat := Nat.pow 2 63 - 1

/-- The number that the characters of a number token denote. -/
def numberToken? (text : List Char) : Option Token :=
  if text.all Char.isDigit then
    let n := Decimal.natOfDigits text
    if n ≤ maxInt then some (.int (Int64.ofNat n)) else none
  else (Decimal.ofChars? text).map fun d => .float d.toFloat

/-! ## Literals of text -/

def unescape : Char → Char
  | 'n' => '\n'
  | 't' => '\t'
  | c => c

/-- A literal up to its closing quote: the text it denotes, the characters it takes up, and what
follows. -/
def stringBody (quote : Char) : List Char → Option (List Char × List Char × List Char)
  | [] => none
  | '\\' :: [] => none
  | '\\' :: e :: r => (stringBody quote r).map fun (s, text, rest) =>
      (unescape e :: s, '\\' :: e :: text, rest)
  | c :: r =>
    if c = quote then some ([], [c], r)
    else (stringBody quote r).map fun (s, text, rest) => (c :: s, c :: text, rest)

/-! ## Single tokens -/

/-- Cuts a token of two characters if the second one follows, else one of the first alone. -/
def cutPair (second : Char) (long short : Token) (r : List Char) : Cut :=
  match r with
  | d :: r' => if d = second then ⟨long, [d], r'⟩ else ⟨short, [], r⟩
  | [] => ⟨short, [], []⟩

/-- Cuts a token that is written as one character twice over. -/
def cutDouble (token : Token) (second : Char) (r : List Char) : Except Problem Cut :=
  match r with
  | d :: r' => if d = second then .ok ⟨token, [d], r'⟩ else .error (.expectedChar second)
  | [] => .error (.expectedChar second)

/-- The name characters at the front of a text. -/
def nameOf (cs : List Char) : List Char := cs.takeWhile isNameChar

/-- What follows the name characters at the front of a text. -/
def afterName (cs : List Char) : List Char := cs.dropWhile isNameChar

/-- Cuts a placeholder whose `$` has been taken. -/
def cutVar (r : List Char) : Except Problem Cut :=
  match r with
  | '{' :: r' =>
    if (nameOf r').isEmpty then .error .expectedName
    else match afterName r' with
      | '}' :: rest => .ok ⟨.var (String.ofList (nameOf r')), '{' :: (nameOf r' ++ ['}']), rest⟩
      | _ => .error (.expectedChar '}')
  | r =>
    if (nameOf r).isEmpty then .error .expectedName
    else .ok ⟨.var (String.ofList (nameOf r)), nameOf r, afterName r⟩

/-- Cuts a literal whose opening quote has been taken. -/
def cutString (quote : Char) (r : List Char) : Except Problem Cut :=
  match stringBody quote r with
  | some (s, text, rest) => .ok ⟨.str (String.ofList s), text, rest⟩
  | none => .error .unterminatedString

/-- Cuts a number that starts with the digit `c`. -/
def cutNumber (c : Char) (r : List Char) : Except Problem Cut :=
  let tail := numberTail true '0' r
  match numberToken? (c :: tail.1) with
  | some token => .ok ⟨token, tail.1, tail.2⟩
  | none => .error (.invalidNumber (String.ofList (c :: tail.1)))

/-- Cuts one token off the text `c :: r`. -/
def cut (c : Char) (r : List Char) : Except Problem Cut :=
  match c with
  | '(' => .ok ⟨.lparen, [], r⟩
  | ')' => .ok ⟨.rparen, [], r⟩
  | '[' => .ok ⟨.lbracket, [], r⟩
  | ']' => .ok ⟨.rbracket, [], r⟩
  | ',' => .ok ⟨.comma, [], r⟩
  | '+' => .ok ⟨.plus, [], r⟩
  | '-' => .ok ⟨.minus, [], r⟩
  | '*' => .ok ⟨.star, [], r⟩
  | '/' => .ok ⟨.slash, [], r⟩
  | '%' => .ok ⟨.percent, [], r⟩
  | '=' => cutDouble .eq '=' r
  | '!' => .ok (cutPair '=' .ne .not r)
  | '<' => .ok (cutPair '=' .le .lt r)
  | '>' => .ok (cutPair '=' .ge .gt r)
  | '&' => cutDouble .and '&' r
  | '|' => cutDouble .or '|' r
  | '"' => cutString '"' r
  | '\x27' => cutString '\x27' r
  | '$' => cutVar r
  | c =>
    if c.isDigit then cutNumber c r
    else if isAlphabetic c || c == '_' then
      .ok ⟨.ofWord (String.ofList (c :: nameOf r)), nameOf r, afterName r⟩
    else .error (.unexpectedChar c)

/-! ## No character is lost -/

theorem nameOf_append_afterName (cs : List Char) : nameOf cs ++ afterName cs = cs :=
  List.takeWhile_append_dropWhile

theorem numberTail_append (cs : List Char) (p : Bool) (previous : Char) :
    (numberTail p previous cs).1 ++ (numberTail p previous cs).2 = cs := by
  induction cs generalizing p previous with
  | nil => rfl
  | cons c r ih =>
    rw [numberTail]
    split
    · simp [ih]
    · rfl

theorem stringBody_append {quote : Char} {cs s text rest : List Char}
    (h : stringBody quote cs = some (s, text, rest)) : text ++ rest = cs := by
  fun_induction stringBody quote cs generalizing s text rest with
  | case1 => cases h
  | case2 => cases h
  | case3 e r ih =>
    obtain ⟨⟨s', text', rest'⟩, h', he⟩ := Option.map_eq_some_iff.1 h
    cases he
    simp [ih h']
  | case4 c r => cases h; rfl
  | case5 c r _ _ _ ih =>
    obtain ⟨⟨s', text', rest'⟩, h', he⟩ := Option.map_eq_some_iff.1 h
    cases he
    simp [ih h']

theorem cutPair_append (second : Char) (long short : Token) (r : List Char) :
    (cutPair second long short r).more ++ (cutPair second long short r).rest = r := by
  unfold cutPair
  split
  · split <;> rfl
  · rfl

theorem cutDouble_append {token : Token} {second : Char} {r : List Char} {t : Cut}
    (h : cutDouble token second r = .ok t) : t.more ++ t.rest = r := by
  unfold cutDouble at h
  split at h
  · split at h
    · cases h; rfl
    · cases h
  · cases h

theorem cutVar_append {r : List Char} {t : Cut} (h : cutVar r = .ok t) : t.more ++ t.rest = r := by
  unfold cutVar at h
  split at h
  · rename_i r'
    split at h
    · cases h
    · split at h
      · rename_i rest hd
        cases h
        have := nameOf_append_afterName r'
        rw [hd] at this
        simpa using this
      · cases h
  · split at h
    · cases h
    · cases h
      exact nameOf_append_afterName _

theorem cutString_append {quote : Char} {r : List Char} {t : Cut}
    (h : cutString quote r = .ok t) : t.more ++ t.rest = r := by
  unfold cutString at h
  split at h
  · rename_i hs
    cases h
    exact stringBody_append hs
  · cases h

theorem cutNumber_append {c : Char} {r : List Char} {t : Cut}
    (h : cutNumber c r = .ok t) : t.more ++ t.rest = r := by
  unfold cutNumber at h
  dsimp only at h
  split at h
  · cases h
    exact numberTail_append r true '0'
  · cases h

theorem cut_append {c : Char} {r : List Char} {t : Cut} (h : cut c r = .ok t) :
    t.more ++ t.rest = r := by
  unfold cut at h
  split at h
  case h_11 => exact cutDouble_append h
  case h_12 => cases h; exact cutPair_append ..
  case h_13 => cases h; exact cutPair_append ..
  case h_14 => cases h; exact cutPair_append ..
  case h_15 => exact cutDouble_append h
  case h_16 => exact cutDouble_append h
  case h_17 => exact cutString_append h
  case h_18 => exact cutString_append h
  case h_19 => exact cutVar_append h
  case h_20 =>
    split at h
    · exact cutNumber_append h
    · split at h
      · cases h
        exact nameOf_append_afterName r
      · cases h
  all_goals cases h; rfl

theorem cut_rest_length_le {c : Char} {r : List Char} {t : Cut} (h : cut c r = .ok t) :
    t.rest.length ≤ r.length := by
  rw [← cut_append h]
  simp

/-! ## All tokens -/

/-- The tokens of a text that starts at byte `offset`, or where and why there is none. -/
def lexemes (offset : Nat) : List Char → Except Fault (List Lexeme)
  | [] => .ok []
  | c :: r =>
    if isSpace c then lexemes (offset + c.utf8Size) r
    else match _h : cut c r with
      | .error problem => .error (.malformed offset problem)
      | .ok t => do
        let ls ← lexemes (offset + c.utf8Size + utf8Length t.more) t.rest
        return ⟨t.token, offset⟩ :: ls
termination_by cs => cs.length
decreasing_by
  · simp
  · have := cut_rest_length_le _h
    simp only [List.length_cons]
    omega

def tokenize (source : String) : Except Fault (List Lexeme) := lexemes 0 source.toList

end GuardTree.Formula
