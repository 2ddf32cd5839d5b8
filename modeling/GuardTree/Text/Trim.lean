import GuardTree.Text.CharClass

/-! # White space at the end of a text -/

namespace GuardTree.Text

set_option autoImplicit false

/-- A text without the white space at its end. -/
def trimEnd (cs : List Char) : List Char := (cs.reverse.dropWhile isSpace).reverse

theorem trimEnd_append_of_not_isSpace (cs : List Char) {c : Char} (h : isSpace c = false) :
    trimEnd (cs ++ [c]) = cs ++ [c] := by
  simp [trimEnd, h]

theorem trimEnd_append_of_isSpace (cs : List Char) {c : Char} (h : isSpace c = true) :
    trimEnd (cs ++ [c]) = trimEnd cs := by
  simp [trimEnd, h]

theorem trimEnd_append_spaces (cs : List Char) {w : List Char} (hw : ∀ c ∈ w, isSpace c = true) :
    trimEnd (cs ++ w) = trimEnd cs := by
  induction w generalizing cs with
  | nil => rw [List.append_nil]
  | cons c w ih =>
    obtain ⟨hc, hw⟩ := List.forall_mem_cons.1 hw
    rw [← List.singleton_append, ← List.append_assoc, ih _ hw, trimEnd_append_of_isSpace cs hc]

/-- What is left is nothing or ends with a character that is not white space. -/
theorem trimEnd_eq_nil_or_append (cs : List Char) :
    trimEnd cs = [] ∨ ∃ w c, trimEnd cs = w ++ [c] ∧ isSpace c = false := by
  cases h : cs.reverse.dropWhile isSpace with
  | nil => exact .inl (by rw [trimEnd, h, List.reverse_nil])
  | cons c r =>
    refine .inr ⟨r.reverse, c, by rw [trimEnd, h, List.reverse_cons], ?_⟩
    have hhead := List.head?_dropWhile_not isSpace cs.reverse
    rw [h] at hhead
    simpa using hhead

end GuardTree.Text
