import GuardTree.Text.CharClass

/-! # Text between double quotes, for reports

`quoted s` shows a text so that every character can be told apart: quotes, backslashes and the
common control characters get a short escape, and a character that is not visible by itself is
written by its code point.
-/

namespace GuardTree.Text

set_option autoImplicit false

def hex (n : Nat) : String := String.ofList (Nat.toDigits 16 n)

def quotedChar (c : Char) : String :=
  match c with
  | '"' => "\\\""
  | '\\' => "\\\\"
  | '\n' => "\\n"
  | '\r' => "\\r"
  | '\t' => "\\t"
  | '\x00' => "\\0"
  | c => if isVisible c then c.toString else "\\u\x7b" ++ hex c.toNat ++ "\x7d"

def quoted (s : String) : String :=
  "\"" ++ String.join (s.toList.map quotedChar) ++ "\""

end GuardTree.Text
