import GuardTree.Yaml.Token
import GuardTree.Yaml.Tree

/-! # The document that tokens make up

A node may have one anchor and one tag, in either order. Where a node may be left out, an empty
plain scalar takes its place.

* `node?`: the node at the front of some tokens, and the tokens after it.
* `document?`: the only document of a text.
-/

namespace GuardTree.Yaml

set_option autoImplicit false

namespace Document

abbrev Handles := List (String × List UInt8)

/-- The meaning of a tag; nothing if its handle is unknown. -/
def tag? (handles : Handles) (handle : String) (suffix : List UInt8) : Option (Option Tag) :=
  if handle.isEmpty then some (Tag.ofOctets suffix)
  else (handles.lookup handle).map fun meaning =>
    Tag.ofOctets (meaning.takeWhile (· != 0) ++ suffix)

structure Properties where
  anchor : Option String
  tag : Option Tag
  /-- Whether there is an anchor or a tag, even one without meaning. -/
  present : Bool

def properties? (handles : Handles) : List Token → Option (Properties × List Token)
  | .anchor a :: .tag h s :: r => (tag? handles h s).map fun t => (⟨some a, t, true⟩, r)
  | .tag h s :: .anchor a :: r => (tag? handles h s).map fun t => (⟨some a, t, true⟩, r)
  | .anchor a :: r => some (⟨some a, none, true⟩, r)
  | .tag h s :: r => (tag? handles h s).map fun t => (⟨none, t, true⟩, r)
  | r => some (⟨none, none, false⟩, r)

/-- Whether a block mapping goes on after a `?` or a colon with no node between. -/
def endsPart : List Token → Bool
  | .key :: _ => true
  | .value :: _ => true
  | .blockEnd :: _ => true
  | _ => false

/-- Whether an item of a block sequence is left out before these tokens. -/
def endsItem : List Token → Bool
  | .blockEntry :: _ => true
  | .blockEnd :: _ => true
  | _ => false

/-- Whether a node of a flow mapping is left out before these tokens. -/
def endsFlowPart : List Token → Bool
  | .flowEntry :: _ => true
  | .flowMappingEnd :: _ => true
  | _ => false

/-- Whether a node of a flow sequence is left out before these tokens. -/
def endsFlowItem : List Token → Bool
  | .flowEntry :: _ => true
  | .flowSequenceEnd :: _ => true
  | _ => false

/-- Passes the comma before the next part of a flow collection; the first part has none. -/
def comma? (first : Bool) : List Token → Option (List Token)
  | .flowEntry :: r => if first then some (.flowEntry :: r) else some r
  | r => if first then some r else none

mutual

/-- The node at the front of some tokens. `block` admits block collections, and `bare` admits a
block sequence that is indented no further than the mapping around it. -/
def node? (handles : Handles) :
    Nat → (block bare : Bool) → List Token → Option (Tree String × List Token)
  | 0, _, _, _ => none
  | _ + 1, _, _, .alias name :: r => some (.alias name, r)
  | fuel + 1, block, bare, ts => do
    let (p, r) ← properties? handles ts
    let leftOut := if p.present then some (.scalar p.anchor p.tag "" true, r) else none
    match r with
    | .blockEntry :: _ =>
      if bare then do
        let (items, r) ← bareItems? handles fuel r
        return (.sequence p.anchor p.tag items, r)
      else leftOut
    | .scalar text plain :: r => some (.scalar p.anchor p.tag text plain, r)
    | .flowSequenceStart :: r => do
      let (items, r) ← flowItems? handles fuel true r
      return (.sequence p.anchor p.tag items, r)
    | .flowMappingStart :: r => do
      let (pairs, r) ← flowPairs? handles fuel true r
      return (.mapping p.anchor p.tag pairs, r)
    | .blockSequenceStart :: r' =>
      if block then do
        let (items, r) ← blockItems? handles fuel r'
        return (.sequence p.anchor p.tag items, r)
      else leftOut
    | .blockMappingStart :: r' =>
      if block then do
        let (pairs, r) ← blockPairs? handles fuel r'
        return (.mapping p.anchor p.tag pairs, r)
      else leftOut
    | _ => leftOut

/-- The node at the front of some tokens, unless it is left out. -/
def optional? (handles : Handles) :
    Nat → (leftOut block bare : Bool) → List Token → Option (Tree String × List Token)
  | 0, _, _, _, _ => none
  | fuel + 1, leftOut, block, bare, ts =>
    if leftOut then some (.missing, ts) else node? handles fuel block bare ts

/-- The items of a block sequence up to its end. -/
def blockItems? (handles : Handles) : Nat → List Token → Option (List (Tree String) × List Token)
  | 0, _ => none
  | fuel + 1, .blockEntry :: r => do
    let (item, r) ← optional? handles fuel (endsItem r) true false r
    let (items, r) ← blockItems? handles fuel r
    return (item :: items, r)
  | _ + 1, .blockEnd :: r => some ([], r)
  | _ + 1, _ => none

/-- The items of a block sequence without an end of its own. -/
def bareItems? (handles : Handles) : Nat → List Token → Option (List (Tree String) × List Token)
  | 0, _ => none
  | fuel + 1, .blockEntry :: r => do
    let (item, r) ← optional? handles fuel (endsItem r || endsPart r) true false r
    let (items, r) ← bareItems? handles fuel r
    return (item :: items, r)
  | _ + 1, r => some ([], r)

/-- The pairs of a block mapping up to its end. -/
def blockPairs? (handles : Handles) :
    Nat → List Token → Option (List (Tree String × Tree String) × List Token)
  | 0, _ => none
  | fuel + 1, .key :: r => do
    let (key, r) ← optional? handles fuel (endsPart r) true true r
    let (value, r) ← match r with
      | .value :: r => optional? handles fuel (endsPart r) true true r
      | r => some (.missing, r)
    let (pairs, r) ← blockPairs? handles fuel r
    return ((key, value) :: pairs, r)
  | _ + 1, .blockEnd :: r => some ([], r)
  | _ + 1, _ => none

/-- The items of a flow sequence up to its end. An item may be a mapping of one pair without
braces. -/
def flowItems? (handles : Handles) :
    Nat → (first : Bool) → List Token → Option (List (Tree String) × List Token)
  | 0, _, _ => none
  | _ + 1, _, .flowSequenceEnd :: r => some ([], r)
  | fuel + 1, first, ts => do
    match ← comma? first ts with
    | .flowSequenceEnd :: r => return ([], r)
    | .key :: r =>
      let (pair, r) ← singlePair? handles fuel r
      let (items, r) ← flowItems? handles fuel false r
      return (.mapping none none [pair] :: items, r)
    | r =>
      let (item, r) ← node? handles fuel false false r
      let (items, r) ← flowItems? handles fuel false r
      return (item :: items, r)

/-- The pair in a flow sequence whose key has been announced. If the key is left out, the token in
its place is passed over. -/
def singlePair? (handles : Handles) :
    Nat → List Token → Option ((Tree String × Tree String) × List Token)
  | 0, _ => none
  | fuel + 1, ts => do
    let (key, r) ← match ts with
      | .value :: r => some (.missing, r)
      | .flowEntry :: r => some (.missing, r)
      | .flowSequenceEnd :: r => some (.missing, r)
      | r => node? handles fuel false false r
    let (value, r) ← match r with
      | .value :: r => optional? handles fuel (endsFlowItem r) false false r
      | r => some (.missing, r)
    return ((key, value), r)

/-- The pairs of a flow mapping up to its end. -/
def flowPairs? (handles : Handles) :
    Nat → (first : Bool) → List Token → Option (List (Tree String × Tree String) × List Token)
  | 0, _, _ => none
  | _ + 1, _, .flowMappingEnd :: r => some ([], r)
  | fuel + 1, first, ts => do
    match ← comma? first ts with
    | .flowMappingEnd :: r => return ([], r)
    | .key :: r =>
      let leftOut := endsFlowPart r || r.head? == some .value
      let (key, r) ← optional? handles fuel leftOut false false r
      let (value, r) ← match r with
        | .value :: r => optional? handles fuel (endsFlowPart r) false false r
        | r => some (.missing, r)
      let (pairs, r) ← flowPairs? handles fuel false r
      return ((key, value) :: pairs, r)
    | r =>
      let (key, r) ← node? handles fuel false false r
      let (pairs, r) ← flowPairs? handles fuel false r
      return ((key, .missing) :: pairs, r)

end

/-! ## Directives -/

def standardHandles : Handles :=
  [("!", "!".toUTF8.toList), ("!!", vocabulary.toUTF8.toList)]

/-- The directives at the front of some tokens: at most one version, which has to be 1.1 or 1.2, and
no handle twice. -/
def directives? (version : Bool) (handles : Handles) : List Token → Option (Handles × List Token)
  | .version major minor :: r =>
    if version || major != 1 || (minor != 1 && minor != 2) then none else directives? true handles r
  | .handle name meaning :: r =>
    if (handles.lookup name).isSome then none
    else directives? version ((name, meaning) :: handles) r
  | r => some (handles, r)

def endsDocument : List Token → Bool
  | [] => true
  | .version _ _ :: _ => true
  | .handle _ _ :: _ => true
  | .documentStart :: _ => true
  | .documentEnd :: _ => true
  | _ => false

/-- A bound on the steps that are needed for some tokens. -/
def enough (ts : List Token) : Nat := 3 * ts.length + 3

/-- The root of the document that starts with these tokens, and what follows. -/
def root? (ts : List Token) : Option (Tree String × List Token) := do
  let (handles, r) ← directives? false [] ts
  let explicit := ts.head?.any fun
    | .version _ _ => true
    | .handle _ _ => true
    | .documentStart => true
    | _ => false
  let handles := handles ++ standardHandles
  if explicit then
    match r with
    | .documentStart :: r => optional? handles (enough r) (endsDocument r) true false r
    | _ => none
  else node? handles (enough ts) true false ts

end Document

/-- The root of the only document of a text, which may be empty (`none` inside). -/
def document? (ts : List Token) : Option (Option (Tree String)) :=
  if ts.isEmpty then some none
  else do
    let (t, r) ← Document.root? ts
    if (r.dropWhile (· == .documentEnd)).isEmpty then return some t else none

end GuardTree.Yaml
