import GuardTree.Text.CharClass

/-! # Placeholders in text

A text is cut from the left into single literal characters and placeholders: at a `$`, `${NAME}` if
a non-empty run of word characters between braces follows, else `$NAME` with the longest non-empty
run of word characters, else the `$` is literal. Putting the spellings back together gives the text
again (`spell_pieces`).
-/

namespace GuardTree

set_option autoImplicit false

open Text

/-- A placeholder, `$NAME` or with braces `${NAME}`. -/
structure Placeholder where
  name : String
  braced : Bool
deriving DecidableEq

def Placeholder.spelling (p : Placeholder) : String :=
  if p.braced then "$\x7b" ++ p.name ++ "\x7d" else "$" ++ p.name

namespace Placeholder

inductive Piece
  | literal (c : Char)
  | placeholder (p : Placeholder)
deriving DecidableEq

/-- The placeholder name at the front of a text. -/
def wordOf (cs : List Char) : List Char := cs.takeWhile isWordChar

/-- What follows the placeholder name at the front of a text. -/
def afterWord (cs : List Char) : List Char := cs.dropWhile isWordChar

/-- The placeholder whose `$` has just been taken, and what follows it. -/
def cut? (cs : List Char) : Option (Placeholder × List Char) :=
  match cs with
  | '{' :: r =>
    if (wordOf r).isEmpty then none
    else match afterWord r with
      | '}' :: rest => some (⟨String.ofList (wordOf r), true⟩, rest)
      | _ => none
  | r =>
    if (wordOf r).isEmpty then none
    else some (⟨String.ofList (wordOf r), false⟩, afterWord r)

theorem afterWord_length_le (cs : List Char) : (afterWord cs).length ≤ cs.length :=
  (List.dropWhile_suffix isWordChar).length_le

theorem cut?_length_le {cs rest : List Char} {p : Placeholder} (h : cut? cs = some (p, rest)) :
    rest.length ≤ cs.length := by
  unfold cut? at h
  split at h
  · rename_i r
    split at h
    · cases h
    · split at h
      · rename_i hd
        cases h
        have := afterWord_length_le r
        rw [hd] at this
        simp only [List.length_cons] at this ⊢
        omega
      · cases h
  · split at h
    · cases h
    · cases h
      exact afterWord_length_le cs

def pieces : List Char → List Piece
  | [] => []
  | c :: r =>
    if c = '$' then
      match _h : cut? r with
      | some (p, rest) => .placeholder p :: pieces rest
      | none => .literal c :: pieces r
    else .literal c :: pieces r
termination_by cs => cs.length
decreasing_by
  · have := cut?_length_le _h
    simp only [List.length_cons]
    omega
  · simp
  · simp

def Piece.spell : Piece → List Char
  | .literal c => [c]
  | .placeholder p => p.spelling.toList

/-- The placeholders of a text, in order and with repetitions. -/
def all (text : String) : List Placeholder :=
  (pieces text.toList).filterMap fun
    | .placeholder p => some p
    | .literal _ => none

def occursIn (text : String) : Bool := !(all text).isEmpty

/-! ## The pieces make up the text -/

theorem spell_cut? {cs rest : List Char} {p : Placeholder} (h : cut? cs = some (p, rest)) :
    p.spelling.toList ++ rest = '$' :: cs := by
  unfold cut? at h
  split at h
  · rename_i r
    split at h
    · cases h
    · split at h
      · rename_i hd
        cases h
        have : wordOf r ++ afterWord r = r := List.takeWhile_append_dropWhile
        rw [hd] at this
        simp [spelling, this]
      · cases h
  · split at h
    · cases h
    · cases h
      have : wordOf cs ++ afterWord cs = cs := List.takeWhile_append_dropWhile
      simp [spelling, this]

theorem spell_pieces (cs : List Char) : (pieces cs).flatMap Piece.spell = cs := by
  fun_induction pieces cs with
  | case1 => rfl
  | case2 r p rest hc ih => simp [Piece.spell, ih, spell_cut? hc]
  | case3 r hc ih => simp [Piece.spell, ih]
  | case4 c r h ih => simp [Piece.spell, ih]

end Placeholder

end GuardTree
