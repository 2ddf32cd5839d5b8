import GuardTree.Document.Load
import GuardTree.Document.Render
import GuardTree.Proofs.Json.RoundTrip

/-! # What trimming takes from the end of YAML

A written tree ends as its last leaf does, or with an empty list or mapping (`endsAs_block`). It is
shown without any white space at its end, and a line break is all that a terminal adds, so what is
shown is what was written exactly if the text is `Firm`: one line break, after a character that is
not white space. A text that is the last leaf may break this, since a plain or literal text is
written with its own white space (`firm_text`); nothing else does.
-/

namespace GuardTree

set_option autoImplicit false

open Text (isSpace trimEnd)

/-! ## The end of a text -/

namespace Yaml

/-- A text that ends with one line break, after a character that is not white space. -/
def Firm (cs : List Char) : Prop := ∃ w c, cs = w ++ [c, '\n'] ∧ isSpace c = false

variable {cs : List Char}

theorem Firm.append (h : Firm cs) (w : List Char) : Firm (w ++ cs) := by
  obtain ⟨w', c, rfl, hc⟩ := h
  exact ⟨w ++ w', c, (List.append_assoc w w' _).symm, hc⟩

theorem Firm.two_le_length (h : Firm cs) : 2 ≤ cs.length := by
  obtain ⟨w, c, rfl, -⟩ := h
  simp

/-- What stands before two characters does not matter. -/
theorem firm_append_iff (hlen : 2 ≤ cs.length) (w : List Char) : Firm (w ++ cs) ↔ Firm cs := by
  refine ⟨?_, fun h => h.append w⟩
  rintro ⟨v, c, h, hc⟩
  have hsuffix : [c, '\n'] <:+ cs :=
    List.suffix_of_suffix_length_le ⟨v, h.symm⟩ (List.suffix_append w cs) hlen
  obtain ⟨u, hu⟩ := hsuffix
  exact ⟨u, c, hu.symm, hc⟩

theorem firm_append_newline {w : List Char} :
    Firm (w ++ ['\n']) ↔ w.getLast?.any (!isSpace ·) = true := by
  constructor
  · rintro ⟨v, c, h, hc⟩
    have hw : w ++ ['\n'] = (v ++ [c]) ++ ['\n'] := by rw [h, List.append_assoc]; rfl
    rw [List.append_cancel_right hw, List.getLast?_concat]
    simpa using hc
  · intro h
    induction w using List.reverseRecOn with
    | nil => cases h
    | append_singleton w c _ =>
      rw [List.getLast?_concat] at h
      exact ⟨w, c, List.append_assoc w [c] _, by simpa using h⟩

theorem not_firm_append {c : Char} (h : c ≠ '\n') (w : List Char) : ¬Firm (w ++ [c]) := by
  rintro ⟨v, d, hv, -⟩
  have hlast := congrArg List.getLast? hv
  rw [List.getLast?_concat, List.append_cons, List.getLast?_concat, Option.some.injEq] at hlast
  exact h hlast

theorem isSpace_of_isBreak {c : Char} (h : isBreak c = true) : isSpace c = true := by
  simp only [isBreak, Bool.or_eq_true, beq_iff_eq] at h
  rcases h with (((rfl | rfl) | rfl) | rfl) | rfl <;> decide

/-- A line break makes up for what is trimmed from a firm text. -/
theorem Firm.trimEnd_append (h : Firm cs) : trimEnd cs ++ ['\n'] = cs := by
  obtain ⟨w, c, rfl, hc⟩ := h
  have htrim : trimEnd (w ++ [c, '\n']) = w ++ [c] := by
    rw [List.append_cons, Text.trimEnd_append_of_isSpace _ (by decide),
      Text.trimEnd_append_of_not_isSpace w hc]
  rw [htrim, List.append_assoc]
  rfl

/-- It makes up for no other text that is more than a line break. -/
theorem firm_of_trimEnd_append (hlen : 2 ≤ cs.length) (h : trimEnd cs ++ ['\n'] = cs) :
    Firm cs := by
  obtain hnil | ⟨w, c, hw, hc⟩ := Text.trimEnd_eq_nil_or_append cs
  · rw [hnil, List.nil_append] at h
    rw [← h] at hlen
    exact absurd hlen (by decide)
  · rw [hw, List.append_assoc] at h
    exact ⟨w, c, h.symm, hc⟩

/-! ## The end of a leaf -/

/-- A text without the line feed at its end, if it has one. -/
def withoutLineFeed (cs : List Char) : List Char :=
  if cs.getLast? = some '\n' then cs.dropLast else cs

/-- Whether a text at the end of a document outlasts the trimming: it is written between quotes, or
a line feed is all the white space at its end. -/
def outlasts (s : String) : Bool :=
  match styleOf s with
  | .singleQuoted => true
  | .doubleQuoted => true
  | .plain => (withoutLineFeed s.toList).getLast?.any (!isSpace ·)
  | .literal => (withoutLineFeed s.toList).getLast?.any (!isSpace ·)

theorem withoutLineFeed_append_lineFeed (w : List Char) : withoutLineFeed (w ++ ['\n']) = w := by
  simp [withoutLineFeed]

theorem withoutLineFeed_of_getLast?_ne {w : List Char} (h : w.getLast? ≠ some '\n') :
    withoutLineFeed w = w :=
  if_neg h

theorem not_mem_of_plain {s : String} (h : styleOf s = .plain) : '\n' ∉ s.toList := by
  intro hmem
  have hcontains : s.toList.contains '\n' = true := List.contains_iff_mem.2 hmem
  simp only [styleOf, hcontains, if_true] at h
  split at h <;> cases h

theorem getLast?_literalChars (indent : Nat) (fresh : Bool) (w : List Char) :
    (literalChars indent fresh w).getLast? = w.getLast? := by
  induction w generalizing fresh with
  | nil => rfl
  | cons c w ih =>
    rw [literalChars]
    split
    · rw [List.getLast?_cons, List.getLast?_cons, ih]
    · rw [List.getLast?_append_of_ne_nil _ (List.cons_ne_nil _ _), List.getLast?_cons,
        List.getLast?_cons, ih]

theorem literalChars_append_break (indent : Nat) {c : Char} (hc : isBreak c = true)
    (w : List Char) (fresh : Bool) :
    literalChars indent fresh (w ++ [c]) = literalChars indent fresh w ++ [c] := by
  induction w generalizing fresh with
  | nil => simp [literalChars, hc]
  | cons d w ih =>
    rw [List.cons_append, literalChars, literalChars]
    split
    · rw [ih, List.cons_append]
    · rw [ih, List.append_assoc, List.cons_append]

/-- What stands after a literal block's header has a last character of its own, or is blank. -/
theorem getLast?_header_append (p : Char → Bool) (hp : p '\n' = false) (v w : List Char) :
    (v ++ '\n' :: w).getLast?.any p = w.getLast?.any p := by
  rw [List.getLast?_append_of_ne_nil _ (List.cons_ne_nil _ _), List.getLast?_cons]
  cases w.getLast? with
  | none => simpa using hp
  | some c => rfl

/-- The lines of a literal block are followed by a line break unless they end with one. -/
theorem firm_literal (indent : Nat) (v w : List Char) :
    Firm (v ++ '\n' :: literalChars indent true w ++
        if w.getLast?.any isBreak then [] else ['\n']) ↔
      (withoutLineFeed w).getLast?.any (!isSpace ·) = true := by
  by_cases hlf : w.getLast? = some '\n'
  case pos =>
    -- The line feed that ends the text is the one that ends the block.
    obtain ⟨u, rfl⟩ := List.getLast?_eq_some_iff.1 hlf
    have hblock : v ++ '\n' :: literalChars indent true (u ++ ['\n']) =
        (v ++ '\n' :: literalChars indent true u) ++ ['\n'] := by
      rw [literalChars_append_break indent (by decide), List.append_assoc, List.cons_append]
    rw [withoutLineFeed_append_lineFeed, hlf, if_pos (by decide), List.append_nil, hblock,
      firm_append_newline, getLast?_header_append _ (by decide), getLast?_literalChars]
  case neg =>
    rw [withoutLineFeed_of_getLast?_ne hlf]
    by_cases hb : w.getLast?.any isBreak = true
    case pos =>
      -- Another line break at the end is taken for white space.
      obtain ⟨c, hc, hbreak⟩ := (Option.any_eq_true ..).1 hb
      obtain ⟨u, rfl⟩ := List.getLast?_eq_some_iff.1 hc
      have hne : c ≠ '\n' := fun heq => hlf (by rw [hc, heq])
      rw [if_pos hb, literalChars_append_break indent hbreak, List.append_nil, ← List.cons_append,
        ← List.append_assoc, hc]
      refine iff_of_false (not_firm_append hne _) ?_
      simp [isSpace_of_isBreak hbreak]
    case neg =>
      rw [if_neg hb, firm_append_newline, getLast?_header_append _ (by decide),
        getLast?_literalChars]

/-- A text is written firmly exactly if it outlasts the trimming. -/
theorem firm_text (indent : Nat) (s : String) : Firm (text indent s) ↔ outlasts s = true := by
  rw [text, outlasts]
  cases hs : styleOf s with
  | plain =>
    have hlf : s.toList.getLast? ≠ some '\n' := fun h =>
      not_mem_of_plain hs (List.mem_of_getLast? h)
    rw [withoutLineFeed_of_getLast?_ne hlf]
    exact firm_append_newline
  | singleQuoted =>
    exact iff_of_true
      ⟨'\x27' :: singleQuotedChars indent false s.toList, '\x27', rfl, by decide⟩ rfl
  | doubleQuoted =>
    exact iff_of_true ⟨'"' :: s.toList.flatMap doubleQuotedChar, '"', rfl, by decide⟩ rfl
  | literal => exact firm_literal indent (literalHeader s.toList) s.toList

end Yaml

/-- Whether a leaf at the end of a document outlasts the trimming: all but some texts do. -/
def Scalar.outlasts : Scalar → Bool
  | .string s => Yaml.outlasts s
  | _ => true

/-! ## The last leaf of a tree -/

namespace Node

mutual

/-- The leaf that a tree ends with; nothing if it ends with an empty list or mapping. -/
def lastLeaf? : Node → Option Scalar
  | .scalar s => some s
  | .list items => lastLeafItems? items
  | .mapping entries => lastLeafEntries? entries

def lastLeafItems? : List Node → Option Scalar
  | [] => none
  | [item] => lastLeaf? item
  | _ :: item :: items => lastLeafItems? (item :: items)

def lastLeafEntries? : List (String × Node) → Option Scalar
  | [] => none
  | [(_, value)] => lastLeaf? value
  | _ :: entry :: entries => lastLeafEntries? (entry :: entries)

end

/-- Whether what is written of a tree in YAML outlasts the trimming: its last leaf does, or it ends
with an empty list or mapping. -/
def outlasts (n : Node) : Bool := n.lastLeaf?.all Scalar.outlasts

theorem exists_lastLeaf?_of_items {s : Scalar} {items : List Node}
    (h : lastLeafItems? items = some s) : ∃ n ∈ items, n.lastLeaf? = some s := by
  induction items with
  | nil => cases h
  | cons item items ih =>
    cases items with
    | nil => exact ⟨item, List.mem_singleton_self item, h⟩
    | cons item' items =>
      obtain ⟨n, hn, hs⟩ := ih h
      exact ⟨n, List.mem_cons_of_mem item hn, hs⟩

theorem exists_lastLeaf?_of_entries {s : Scalar} {entries : List (String × Node)}
    (h : lastLeafEntries? entries = some s) : ∃ e ∈ entries, e.2.lastLeaf? = some s := by
  induction entries with
  | nil => cases h
  | cons entry entries ih =>
    cases entries with
    | nil => exact ⟨entry, List.mem_singleton_self entry, h⟩
    | cons entry' entries =>
      obtain ⟨e, he, hs⟩ := ih h
      exact ⟨e, List.mem_cons_of_mem entry he, hs⟩

theorem FloatFree.lastLeaf?_ne_float {n : Node} (h : n.FloatFree) {s : Scalar}
    (hs : n.lastLeaf? = some s) (x : Float) : s ≠ .float x := by
  induction h with
  | scalar hne =>
    obtain rfl := Option.some.inj hs
    exact hne x
  | list _ ih =>
    obtain ⟨n, hn, hlast⟩ := exists_lastLeaf?_of_items hs
    exact ih n hn hlast
  | mapping _ ih =>
    obtain ⟨e, he, hlast⟩ := exists_lastLeaf?_of_entries hs
    exact ih e he hlast

end Node

namespace Yaml

variable {cs : List Char} {o : Option Scalar}

/-! ## The end of a written leaf -/

/-- A leaf that is no floating-point number is written firmly exactly if it outlasts the
trimming. -/
theorem firm_leaf {s : Scalar} (hs : ∀ x, s ≠ .float x) (indent : Nat) :
    Firm (leaf indent s) ↔ s.outlasts = true := by
  cases s with
  | null => exact iff_of_true ⟨['n', 'u', 'l'], 'l', rfl, by decide⟩ rfl
  | bool b =>
    cases b with
    | false => exact iff_of_true ⟨['f', 'a', 'l', 's'], 'e', rfl, by decide⟩ rfl
    | true => exact iff_of_true ⟨['t', 'r', 'u'], 'e', rfl, by decide⟩ rfl
  | integer n =>
    obtain ⟨w, c, hc, hd⟩ := Json.toString_eq_append n
    have hspace := Decimal.forall_isDigit (p := fun c => isSpace c = false) (by decide) hd
    exact iff_of_true ⟨w, c, by rw [leaf, hc, List.append_assoc]; rfl, hspace⟩ rfl
  | float x => exact absurd rfl (hs x)
  | string s => exact firm_text indent s

/-- An empty text is written between quotes, so that no leaf is a line break only. -/
theorem two_le_length_leaf {s : Scalar} (hs : ∀ x, s ≠ .float x) (indent : Nat) :
    2 ≤ (leaf indent s).length := by
  cases s with
  | string s =>
    rw [leaf, text]
    cases hstyle : styleOf s with
    | plain =>
      have hne : s.toList ≠ [] := by
        intro h
        rw [String.toList_eq_nil_iff.1 h] at hstyle
        exact absurd hstyle (by decide)
      have hpos := List.length_pos_iff.2 hne
      simp only [List.length_append, List.length_cons]
      omega
    | singleQuoted => simp
    | doubleQuoted => simp
    | literal =>
      simp only [literalHeader, List.length_append, List.length_cons]
      omega
  | float x => exact absurd rfl (hs x)
  | null => exact Nat.le_of_ble_eq_true rfl
  | bool b => cases b <;> exact Nat.le_of_ble_eq_true rfl
  | integer n =>
    obtain ⟨w, c, hc, -⟩ := Json.toString_eq_append n
    simp only [leaf, hc, List.length_append, List.length_cons]
    omega

/-! ## The end of a written tree -/

/-- A text that ends with a leaf, or else with an empty list or mapping. -/
def EndsAs (cs : List Char) : Option Scalar → Prop
  | some s => ∃ w indent, cs = w ++ leaf indent s
  | none => Firm cs

theorem EndsAs.append (h : EndsAs cs o) (w : List Char) : EndsAs (w ++ cs) o := by
  cases o with
  | none => exact Firm.append h w
  | some s =>
    obtain ⟨v, indent, rfl⟩ := h
    exact ⟨w ++ v, indent, (List.append_assoc w v _).symm⟩

theorem EndsAs.two_le_length (h : EndsAs cs o) (ho : ∀ s, o = some s → ∀ x, s ≠ .float x) :
    2 ≤ cs.length := by
  cases o with
  | none => exact Firm.two_le_length h
  | some s =>
    obtain ⟨w, indent, rfl⟩ := h
    have hlen := two_le_length_leaf (ho s rfl) indent
    rw [List.length_append]
    omega

theorem EndsAs.firm_iff (h : EndsAs cs o) (ho : ∀ s, o = some s → ∀ x, s ≠ .float x) :
    Firm cs ↔ o.all Scalar.outlasts = true := by
  cases o with
  | none => exact iff_of_true h rfl
  | some s =>
    obtain ⟨w, indent, rfl⟩ := h
    rw [firm_append_iff (two_le_length_leaf (ho s rfl) indent), firm_leaf (ho s rfl)]
    rfl

mutual

/-- A written tree ends as its last leaf does. -/
theorem endsAs_block (indent : Nat) : ∀ n : Node, EndsAs (block indent n) n.lastLeaf?
  | .scalar s => ⟨[], indent, by rw [block]; rfl⟩
  | .list [] => ⟨['['], ']', by rw [block]; rfl, by decide⟩
  | .list (item :: items) => by
    have h := endsAs_items (indent + 2) indent item items
    rw [block]
    exact h.append ['-', ' ']
  | .mapping [] => ⟨['\x7b'], '\x7d', by rw [block]; rfl, by decide⟩
  | .mapping ((k, v) :: entries) => by
    have h := endsAs_entries indent indent k v entries
    rw [block, List.append_assoc]
    exact h.append (key indent k)
termination_by n => sizeOf n

/-- The rest of a list's text from an item on, the item itself being indented by `inner`. -/
theorem endsAs_items (inner indent : Nat) : ∀ (item : Node) (items : List Node),
    EndsAs (block inner item ++ blockItems indent items) (Node.lastLeafItems? (item :: items))
  | item, [] => by
    rw [blockItems, List.append_nil]
    exact endsAs_block inner item
  | item, item' :: items => by
    have h := endsAs_items (indent + 2) indent item' items
    rw [blockItems, List.append_assoc]
    exact ((h.append ['-', ' ']).append (pad indent)).append (block inner item)
termination_by item items => sizeOf item + sizeOf items

/-- The rest of a mapping's text from a value on, the value's key being indented by `inner`. -/
theorem endsAs_entries (inner indent : Nat) :
    ∀ (k : String) (v : Node) (entries : List (String × Node)),
      EndsAs (blockValue inner (isSimpleKey k) v ++ blockEntries indent entries)
        (Node.lastLeafEntries? ((k, v) :: entries))
  | k, v, [] => by
    rw [blockEntries, List.append_nil]
    exact endsAs_blockValue inner (isSimpleKey k) v
  | k, v, (k', v') :: entries => by
    have h := endsAs_entries indent indent k' v' entries
    rw [blockEntries, List.append_assoc, List.append_assoc]
    exact ((h.append (key indent k')).append (pad indent)).append _
termination_by _ v entries => sizeOf v + sizeOf entries

theorem endsAs_blockValue (indent : Nat) (simpleKey : Bool) :
    ∀ n : Node, EndsAs (blockValue indent simpleKey n) n.lastLeaf?
  | .scalar s => ⟨[' '], indent + 2, by simp [blockValue, block]⟩
  | .list [] => ⟨[' ', '['], ']', by simp [blockValue, block], by decide⟩
  | .list (item :: items) => by
    rw [blockValue]
    split
    · have h := endsAs_items (indent + 2) indent item items
      rw [List.append_assoc]
      exact (h.append ['-', ' ']).append ('\n' :: pad indent)
    · have h := endsAs_items (indent + 4) (indent + 2) item items
      exact h.append [' ', '-', ' ']
  | .mapping [] => ⟨[' ', '\x7b'], '\x7d', by simp [blockValue, block], by decide⟩
  | .mapping ((k, v) :: entries) => by
    have h := endsAs_entries (indent + 2) (indent + 2) k v entries
    rw [blockValue, List.append_assoc]
    exact h.append _
termination_by n => sizeOf n

end

/-- What a tree is written as ends as its last leaf does. -/
theorem endsAs_write (n : Node) : EndsAs (write n).toList n.lastLeaf? := by
  cases n with
  | scalar s => exact ⟨[], 2, by rw [write, String.toList_ofList]; rfl⟩
  | list items =>
    have h := endsAs_block 0 (.list items)
    rwa [← String.toList_ofList (l := block 0 (.list items))] at h
  | mapping entries =>
    have h := endsAs_block 0 (.mapping entries)
    rwa [← String.toList_ofList (l := block 0 (.mapping entries))] at h

/-- A line break makes up for what is trimmed from a written tree exactly if the tree outlasts the
trimming. -/
theorem trimEnd_write_iff {n : Node} (h : n.FloatFree) :
    trimEnd (write n).toList ++ ['\n'] = (write n).toList ↔ n.outlasts = true := by
  have hend := endsAs_write n
  have hlast : ∀ s, n.lastLeaf? = some s → ∀ x, s ≠ .float x := fun s hs =>
    h.lastLeaf?_ne_float hs
  rw [Node.outlasts, ← hend.firm_iff hlast]
  exact ⟨firm_of_trimEnd_append (hend.two_le_length hlast), Firm.trimEnd_append⟩

/-! ## A mapping of one text -/

theorem node_quoted (targets : Targets) (room left : Nat) (s : String) :
    (Build.node targets room (.scalar none none s false)).run left =
      some (.scalar (.string s), left) := by
  rw [Build.node]
  rfl

theorem key_text (targets : Targets) (left : Nat) {k : String} (hk : resolve k = .text) :
    (Build.key targets (.scalar none none k true)).run left = some (k, left) := by
  simp [Build.key, Build.follow, resolveTagged, hk]
  rfl

/-- The tokens of a mapping whose one value is a text in quotes or in a block. -/
def entryTokens (k s : String) : List Token :=
  [.blockMappingStart, .key, .scalar k true, .value, .scalar s false, .blockEnd]

/-- The tree of these tokens. -/
def entryTree {α : Type} (k s : String) : Tree α :=
  .mapping none none [(.scalar none none k true, .scalar none none s false)]

theorem node_entryTree (left : Nat) {k : String} (hk : resolve k = .text) (s : String) :
    (Build.node [] maxNesting (entryTree k s)).run left =
      some (.mapping [(k, .scalar (.string s))], left) := by
  have hmap : Node.ofMap (.ofList [(k, .scalar (.string s))]) =
      .mapping [(k, .scalar (.string s))] :=
    congrArg Node.mapping (OrderedMap.toList_ofList_of_nodup (List.nodup_singleton k))
  rw [maxNesting, entryTree, Build.node]
  simp [Build.follow, key_text, node_quoted, hk, hmap]

theorem read?_of_entryTokens {text k s : String} (hk : resolve k = .text)
    (h : tokens? text.toList = some (entryTokens k s)) :
    read? text = some (.mapping [(k, .scalar (.string s))]) := by
  have hdoc : document? (entryTokens k s) = some (some (entryTree k s)) := rfl
  have hbuild : build? (entryTree k s) = some (.mapping [(k, .scalar (.string s))]) := by
    have hnumber : Tree.number? (entryTree k s) [] = some (entryTree k s, []) := rfl
    have hanchored : (Tree.anchored (entryTree k s)).reverse = [] := rfl
    rw [build?, hnumber, Option.bind_eq_bind, Option.bind_some]
    simp only [hanchored, node_entryTree _ hk, Option.bind_eq_bind, Option.bind_some]
    rfl
  rw [read?, h, Option.bind_eq_bind, Option.bind_some, hdoc, Option.bind_eq_bind, Option.bind_some]
  exact hbuild

end Yaml

namespace Document

theorem parse_yaml_ok {text : String} {n : Node} (h : Yaml.read? text = some n) :
    (parse .yaml text).outcome = .ok n := by
  simp [parse, h, Traced.note]
  rfl

/-- What is shown of a tree in YAML, with a line break, is what was written of it exactly if the
tree outlasts the trimming. -/
theorem render_yaml_eq_write_iff {n : Node} (h : n.FloatFree) (compact : Bool) :
    render .yaml compact n ++ "\n" = Yaml.write n ↔ n.outlasts = true := by
  have htoList : (render .yaml compact n ++ "\n").toList =
      trimEnd (Yaml.write n).toList ++ ['\n'] := by
    rw [String.toList_append, render, String.toList_ofList]
    rfl
  rw [← Yaml.trimEnd_write_iff h, ← htoList, String.toList_inj]

/-- **YAML is shown as it was written exactly if its end outlasts the trimming.** For a tree without
floating-point numbers whose written text is read back as the tree, what is shown, with the line
break that follows it, is the written text exactly if the tree ends with an empty list or mapping,
with a leaf that is no text, with a text between quotes or with a text whose white space at the end
is at most one line feed; and then it is read back as the tree. -/
theorem parse_render_yaml {n : Node} (hf : n.FloatFree)
    (hread : (parse .yaml (Yaml.write n)).outcome = .ok n) (compact : Bool) :
    (render .yaml compact n ++ "\n" = Yaml.write n ↔ n.outlasts = true) ∧
      (n.outlasts = true → (parse .yaml (render .yaml compact n ++ "\n")).outcome = .ok n) := by
  have hiff := render_yaml_eq_write_iff hf compact
  refine ⟨hiff, fun h => ?_⟩
  rw [hiff.2 h]
  exact hread

/-- A block whose text ends with one line feed. -/
theorem parse_render_yaml_one_line_feed :
    let n : Node := .mapping [("k", .scalar (.string "a\n"))]
    (n.FloatFree ∧ (parse .yaml (Yaml.write n)).outcome = .ok n ∧ n.outlasts = true) ∧
      render .yaml false n ++ "\n" = Yaml.write n ∧
      (parse .yaml (render .yaml false n ++ "\n")).outcome = .ok n := by
  intro n
  have hf : n.FloatFree := .mapping (by simp [Node.FloatFree.scalar])
  have hwrite : Yaml.write n = "k: |\n  a\n" := by cbv
  have hread : Yaml.read? "k: |\n  a\n" = some n :=
    Yaml.read?_of_entryTokens (by cbv) (by cbv)
  have hparse : (parse .yaml (Yaml.write n)).outcome = .ok n := by
    rw [hwrite]
    exact parse_yaml_ok hread
  have hlast : n.outlasts = true := by cbv
  obtain ⟨htext, hshown⟩ := parse_render_yaml hf hparse false
  exact ⟨⟨hf, hparse, hlast⟩, htext.2 hlast, hshown hlast⟩

/-- Of two line feeds at the end of a block, one is lost. -/
theorem parse_render_yaml_two_line_feeds :
    let n : Node := .mapping [("k", .scalar (.string "a\n\n"))]
    n.FloatFree ∧ (parse .yaml (Yaml.write n)).outcome = .ok n ∧
      (parse .yaml (render .yaml false n ++ "\n")).outcome =
        .ok (.mapping [("k", .scalar (.string "a\n"))]) := by
  intro n
  have hf : n.FloatFree := .mapping (by simp [Node.FloatFree.scalar])
  have hwrite : Yaml.write n = "k: |+\n  a\n\n" := by cbv
  have hrender : render .yaml false n = "k: |+\n  a" := by cbv
  refine ⟨hf, ?_, ?_⟩
  · rw [hwrite]
    exact parse_yaml_ok (Yaml.read?_of_entryTokens (by cbv) (by cbv))
  · rw [hrender]
    exact parse_yaml_ok (Yaml.read?_of_entryTokens (by cbv) (by cbv))

end Document

end GuardTree
