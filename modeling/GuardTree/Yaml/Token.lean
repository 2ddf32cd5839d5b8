/-! # Tokens of a YAML text

Indentation shows in the tokens: a block collection is enclosed in a start token and `blockEnd`, and
every key of a mapping has a `key` token before it, whether or not a `?` stands in the text.
-/

namespace GuardTree.Yaml

set_option autoImplicit false

inductive Token
  | version (major minor : Nat)
  /-- Declares that a tag handle stands for a beginning of tags. -/
  | handle (name : String) (meaning : List UInt8)
  | documentStart
  | documentEnd
  | blockSequenceStart
  | blockMappingStart
  | blockEnd
  | flowSequenceStart
  | flowSequenceEnd
  | flowMappingStart
  | flowMappingEnd
  | blockEntry
  | flowEntry
  | key
  | value
  | alias (name : String)
  | anchor (name : String)
  /-- A tag, as octets after its handle; one that is spelt out has an empty handle. -/
  | tag (handle : String) (suffix : List UInt8)
  | scalar (text : String) (plain : Bool)
deriving DecidableEq

end GuardTree.Yaml
