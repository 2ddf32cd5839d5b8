import GuardTree.Text.Hex
import GuardTree.Yaml.Cursor

/-! # Anchors, aliases and tags

A tag consists of a handle, `!`, `!!` or `!name!`, and a suffix, or is spelt out between `!<` and
`>`. Its characters are counted in octets, since an escape `%XX` stands for one octet; the octets of
a character are escaped all or none. A zero octet ends the suffix.
-/

namespace GuardTree.Yaml

set_option autoImplicit false

/-- The name of the anchor or alias whose indicator stands here. -/
def Cursor.anchor? (c : Cursor) : Option (String × Cursor) :=
  let c := c.advance 1
  let name := c.rest.takeWhile isNamePart
  let next := c.advance name.length
  let ends := match next.rest with
    | [] => true
    | d :: _ => isGap d || "?:,]\x7d%@\x60".toList.contains d
  if name.isEmpty || !ends then none else some (String.ofList name, next)

/-! ## Characters of tags -/

/-- A character of a tag. Flow indicators count only where no flow collection can be meant. -/
def isTagPart (verbatim : Bool) (c : Char) : Bool :=
  isNamePart c || ";/?:@&=+$.!~*'()".toList.contains c ||
    verbatim && (c == ',' || c == '[' || c == ']')

/-- The number of octets that make up a character with a given first octet. -/
def octetCount? (n : Nat) : Option Nat :=
  if n < 0x80 then some 1
  else if 0xC0 ≤ n ∧ n < 0xE0 then some 2
  else if 0xE0 ≤ n ∧ n < 0xF0 then some 3
  else if 0xF0 ≤ n ∧ n < 0xF8 then some 4
  else none

/-- The octets of the part of a tag at the front of a text, and its length in characters. `owed` is
the number of escapes that the character before still needs. -/
def tagOctets? (verbatim : Bool) : Nat → List Char → Option (List UInt8 × Nat)
  | owed, '%' :: a :: b :: r => do
    let octet := 16 * (← Text.hexValue? a) + (← Text.hexValue? b)
    let left ← if owed = 0 then (octetCount? octet).map (· - 1)
      else if 0x80 ≤ octet ∧ octet < 0xC0 then some (owed - 1) else none
    let (octets, n) ← tagOctets? verbatim left r
    return (octet.toUInt8 :: octets, n + 3)
  | 0, [] => some ([], 0)
  | 0, c :: r =>
    if c == '%' then none
    else if isTagPart verbatim c then
      (tagOctets? verbatim 0 r).map fun (octets, n) => (String.utf8EncodeChar c ++ octets, n + 1)
    else some ([], 0)
  | _ + 1, _ => none

/-- The handle at the front of a text that starts with `!`, or what might have been one. -/
def tagHandle (cs : List Char) : List Char :=
  let name := (cs.drop 1).takeWhile isNamePart
  '!' :: name ++ if (cs.drop (name.length + 1)).head? == some '!' then ['!'] else []

/-- Whether a handle is closed by a second `!`. -/
def isClosedHandle (handle : List Char) : Bool :=
  1 < handle.length && handle.getLast? == some '!'

/-- The tag whose first `!` stands here, as handle and suffix. -/
def Cursor.tag? (c : Cursor) (flow : Bool) : Option ((String × List UInt8) × Cursor) := do
  let (tag, next) ← match c.rest with
    | _ :: '<' :: r => do
      let (octets, n) ← tagOctets? true 0 r
      let next := c.advance (n + 2)
      if n = 0 || next.rest.head? != some '>' then none
      some (("", octets), next.advance 1)
    | cs => do
      let handle := tagHandle cs
      let (octets, n) ← tagOctets? false 0 (cs.drop handle.length)
      let next := c.advance (handle.length + n)
      if isClosedHandle handle then
        if n = 0 then none else some ((String.ofList handle, octets), next)
      else
        let suffix := (handle.drop 1).flatMap String.utf8EncodeChar ++ octets
        let alone := suffix.head?.all (· == 0)
        some (if alone then ("", String.utf8EncodeChar '!') else ("!", suffix), next)
  if atGap next.rest || flow && next.rest.head? == some ',' then some (tag, next) else none

end GuardTree.Yaml
