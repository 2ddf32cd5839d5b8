import GuardTree.Document.Load
import GuardTree.Document.Render
import GuardTree.Proofs.Json.Front
import GuardTree.Proofs.Json.Layout
import GuardTree.Proofs.Tree.EntryLookup

/-! # JSON reads back what it wrote

A layout of a tree is read as that tree (`valueAt_layout`), as long as the tree nests no deeper than
the reader goes and no mapping has a key twice. Since both writers write layouts, a written tree is
read back whole, with and without the white space at its end.
-/

namespace GuardTree.Json

set_option autoImplicit false

variable {room : Nat} {b cs rest : List Char} {n : Node}

/-! ## Blanks -/

theorem skipBlanks_blanks_append (hb : Blanks b) {c : Char} (hc : isBlank c = false)
    (cs : List Char) : skipBlanks (b ++ c :: cs) = c :: cs := by
  rw [skipBlanks, List.dropWhile_append_of_pos hb, List.dropWhile_cons, hc]
  rfl

theorem endsNumber_blanks_append (hb : Blanks b) (h : EndsNumber rest) :
    EndsNumber (b ++ rest) := by
  cases b with
  | nil => exact h
  | cons c b =>
    have hc : isBlank c = true := hb c List.mem_cons_self
    simp only [isBlank, Bool.or_eq_true, beq_iff_eq] at hc
    obtain ((rfl | rfl) | rfl) | rfl := hc
    all_goals exact endsNumber_cons (by decide) (by decide) _

theorem endsNumber_comma (cs : List Char) : EndsNumber (',' :: cs) :=
  endsNumber_cons (by decide) (by decide) cs

theorem endsNumber_bracket (cs : List Char) : EndsNumber (']' :: cs) :=
  endsNumber_cons (by decide) (by decide) cs

theorem endsNumber_brace (cs : List Char) : EndsNumber ('\x7d' :: cs) :=
  endsNumber_cons (by decide) (by decide) cs

theorem Layout.skipBlanks (h : Layout n cs) (hb : Blanks b) (rest : List Char) :
    Json.skipBlanks (b ++ cs ++ rest) = cs ++ rest := by
  obtain ⟨c, r, rfl, hc, -⟩ := h.eq_cons
  rw [List.append_assoc, List.cons_append, skipBlanks_blanks_append hb hc]

/-- After the bracket of a list that has items no bracket closes it. -/
theorem LayoutItems.skipBlanks_ne {items : List Node} (h : LayoutItems items cs)
    (rest r : List Char) : Json.skipBlanks (cs ++ rest) ≠ ']' :: r := by
  obtain ⟨n, b, ds, tail, hb, hn, rfl⟩ :
      ∃ n b ds tail, Blanks b ∧ Layout n ds ∧ cs = b ++ ds ++ tail := by
    cases h with
    | last hb hn _ => exact ⟨_, _, _, _, hb, hn, rfl⟩
    | cons hb hn _ _ => exact ⟨_, _, _, _, hb, hn, List.append_assoc _ _ _⟩
  obtain ⟨c, ds, rfl, hc, hmem⟩ := hn.eq_cons
  rw [List.append_assoc, hn.skipBlanks hb]
  rintro h
  simp_all

/-- After the brace of a mapping that has entries comes the quote of a key. -/
theorem LayoutEntries.skipBlanks_eq {entries : List (String × Node)} (h : LayoutEntries entries cs)
    (rest : List Char) : ∃ r, Json.skipBlanks (cs ++ rest) = '"' :: r := by
  obtain ⟨b, ds, hb, rfl⟩ : ∃ b ds, Blanks b ∧ cs = b ++ '"' :: ds := by
    cases h with
    | last hb key _ _ _ _ => exact ⟨_, _, hb, by simp [string]; rfl⟩
    | cons hb key _ _ _ _ _ => exact ⟨_, _, hb, by simp [string]; rfl⟩
  rw [List.append_assoc, List.cons_append]
  exact ⟨_, skipBlanks_blanks_append hb (by decide) _⟩

/-! ## Reading one item and one entry -/

theorem itemsAt_of_valueAt {c : Char} (hb : Blanks b) (hc : isBlank c = false)
    (hv : valueAt room cs = some (n, b ++ c :: rest)) :
    itemsAt room cs = afterItem room n (c :: rest) := by
  rw [itemsAt_eq, hv]
  simp only [Option.bind_some, skipBlanks_blanks_append hb hc]

theorem pairsAt_of_valueAt (key : String) {b₁ b₂ : List Char} {c : Char} (hb₁ : Blanks b₁)
    (hb₂ : Blanks b₂) (hb : Blanks b) (hc : isBlank c = false)
    (hv : valueAt room cs = some (n, b ++ c :: rest)) :
    pairsAt room (b₁ ++ string key ++ b₂ ++ ':' :: cs) = afterPair room (key, n) (c :: rest) := by
  have hquote : skipBlanks (b₁ ++ string key ++ b₂ ++ ':' :: cs) =
      '"' :: (key.toList.flatMap stringChar ++ '"' :: (b₂ ++ ':' :: cs)) := by
    simpa [string] using skipBlanks_blanks_append hb₁ (c := '"') (by decide)
      (key.toList.flatMap stringChar ++ '"' :: (b₂ ++ ':' :: cs))
  have hcolon : skipBlanks (b₂ ++ ':' :: cs) = ':' :: cs :=
    skipBlanks_blanks_append hb₂ (by decide) cs
  rw [pairsAt_eq]
  simp only [hquote, stringBody?_flatMap, Option.bind_some, hcolon, hv,
    skipBlanks_blanks_append hb hc, String.ofList_toList]

/-! ## Reading a layout -/

theorem valueAt_scalar {s : Scalar} (hs : ∀ x, s ≠ .float x) (hb : Blanks b)
    (hr : EndsNumber rest) : valueAt room (b ++ scalar s ++ rest) = some (.scalar s, rest) := by
  have hskip := (Layout.scalar hs).skipBlanks hb rest
  obtain ⟨c, r, hc, -, hmem⟩ := scalar_eq_cons hs
  have hleaf := leaf?_scalar hs hr
  rw [valueAt_eq, hskip]
  rw [hc, List.cons_append] at hleaf ⊢
  split <;> simp_all

variable {items : List Node} {entries : List (String × Node)}

theorem valueAt_emptyList {d : List Char} (hd : Blanks d) (hb : Blanks b) (rest : List Char) :
    valueAt (room + 1) (b ++ ('[' :: d ++ [']']) ++ rest) = some (.list [], rest) := by
  have hinner := skipBlanks_blanks_append hd (c := ']') (by decide) rest
  rw [valueAt_eq, (Layout.emptyList hd).skipBlanks hb]
  simp [hinner]

theorem valueAt_list (h : LayoutItems items cs) (hb : Blanks b)
    (hi : itemsAt room (cs ++ ']' :: rest) = some (items, rest)) :
    valueAt (room + 1) (b ++ ('[' :: cs ++ [']']) ++ rest) = some (.list items, rest) := by
  have hne := h.skipBlanks_ne (']' :: rest)
  rw [valueAt_eq, (Layout.list h).skipBlanks hb]
  simp [hi]

theorem valueAt_emptyMapping {d : List Char} (hd : Blanks d) (hb : Blanks b) (rest : List Char) :
    valueAt (room + 1) (b ++ ('\x7b' :: d ++ ['\x7d']) ++ rest) = some (.mapping [], rest) := by
  have hinner := skipBlanks_blanks_append hd (c := '\x7d') (by decide) rest
  rw [valueAt_eq, (Layout.emptyMapping hd).skipBlanks hb]
  simp [hinner]

theorem valueAt_mapping (h : LayoutEntries entries cs) (hnodup : (entries.map Prod.fst).Nodup)
    (hb : Blanks b) (hi : pairsAt room (cs ++ '\x7d' :: rest) = some (entries, rest)) :
    valueAt (room + 1) (b ++ ('\x7b' :: cs ++ ['\x7d']) ++ rest) =
      some (.mapping entries, rest) := by
  obtain ⟨r, hquote⟩ := h.skipBlanks_eq ('\x7d' :: rest)
  rw [valueAt_eq, (Layout.mapping h).skipBlanks hb]
  simp [hquote, hi, Node.ofMap, OrderedMap.toList_ofList_of_nodup hnodup]

theorem exists_room {depth room : Nat} (h : 1 + depth ≤ room) :
    ∃ r, room = r + 1 ∧ depth ≤ r :=
  ⟨room - 1, by omega, by omega⟩

mutual

/-- **A layout is read as the tree that it shows.** -/
theorem valueAt_layout {room : Nat} : ∀ {n : Node} {b cs rest : List Char}, Layout n cs →
    n.DistinctKeys → n.nesting ≤ room → Blanks b → EndsNumber rest →
      valueAt room (b ++ cs ++ rest) = some (n, rest)
  | _, _, _, _, .scalar hs, _, _, hb, hr => valueAt_scalar hs hb hr
  | _, _, _, rest, .emptyList hd, _, hn, hb, _ => by
    obtain ⟨room, rfl, -⟩ := exists_room hn
    exact valueAt_emptyList hd hb rest
  | _, _, _, _, .list hs, .list hd, hn, hb, _ => by
    obtain ⟨room, rfl, hroom⟩ := exists_room hn
    exact valueAt_list hs hb (itemsAt_layout hs hd hroom)
  | _, _, _, rest, .emptyMapping hd, _, hn, hb, _ => by
    obtain ⟨room, rfl, -⟩ := exists_room hn
    exact valueAt_emptyMapping hd hb rest
  | _, _, _, _, .mapping hs, .mapping hnodup hd, hn, hb, _ => by
    obtain ⟨room, rfl, hroom⟩ := exists_room hn
    exact valueAt_mapping hs hnodup hb (pairsAt_layout hs hd hroom)

theorem itemsAt_layout {room : Nat} : ∀ {items : List Node} {cs rest : List Char},
    LayoutItems items cs → (∀ n ∈ items, n.DistinctKeys) → Node.nestingItems items ≤ room →
      itemsAt room (cs ++ ']' :: rest) = some (items, rest)
  | _, _, rest, .last hb h hb', hd, hn => by
    have hv := valueAt_layout h (hd _ List.mem_cons_self) (Nat.max_le.1 hn).1 hb
      (endsNumber_blanks_append hb' (endsNumber_bracket rest))
    have hi := itemsAt_of_valueAt hb' (by decide) hv
    simpa [afterItem] using hi
  | _, _, rest, @LayoutItems.cons _ _ _ _ hb h hb' items ds hs, hd, hn => by
    have hrest : itemsAt room (ds ++ ']' :: rest) = some (items, rest) :=
      itemsAt_layout hs (fun n hm => hd n (List.mem_cons_of_mem _ hm)) (Nat.max_le.1 hn).2
    have hv := valueAt_layout h (hd _ List.mem_cons_self) (Nat.max_le.1 hn).1 hb
      (endsNumber_blanks_append hb' (endsNumber_comma (ds ++ ']' :: rest)))
    have hi := itemsAt_of_valueAt hb' (by decide) hv
    simpa [afterItem, hrest] using hi

theorem pairsAt_layout {room : Nat} : ∀ {entries : List (String × Node)} {cs rest : List Char},
    LayoutEntries entries cs → (∀ e ∈ entries, e.2.DistinctKeys) →
      Node.nestingEntries entries ≤ room →
        pairsAt room (cs ++ '\x7d' :: rest) = some (entries, rest)
  | _, _, rest, .last hb₁ key hb₂ hb₃ h hb₄, hd, hn => by
    have hv := valueAt_layout h (hd _ List.mem_cons_self) (Nat.max_le.1 hn).1 hb₃
      (endsNumber_blanks_append hb₄ (endsNumber_brace rest))
    have hp := pairsAt_of_valueAt key hb₁ hb₂ hb₄ (by decide) hv
    simpa [afterPair] using hp
  | _, _, rest, @LayoutEntries.cons _ _ _ _ _ _ hb₁ key hb₂ hb₃ h hb₄ entries ds hs, hd, hn => by
    have hrest : pairsAt room (ds ++ '\x7d' :: rest) = some (entries, rest) :=
      pairsAt_layout hs (fun e he => hd e (List.mem_cons_of_mem _ he)) (Nat.max_le.1 hn).2
    have hv := valueAt_layout h (hd _ List.mem_cons_self) (Nat.max_le.1 hn).1 hb₃
      (endsNumber_blanks_append hb₄ (endsNumber_comma (ds ++ '\x7d' :: rest)))
    have hp := pairsAt_of_valueAt key hb₁ hb₂ hb₄ (by decide) hv
    simpa [afterPair, hrest] using hp

end

/-- A text that is a layout of a tree denotes that tree. -/
theorem read_of_layout (h : Layout n cs) (hd : n.DistinctKeys) (hn : n.nesting ≤ maxNesting) :
    read (String.ofList cs) = .ok n := by
  have hv := valueAt_layout h hd hn blanks_nil endsNumber_nil
  rw [List.nil_append, List.append_nil] at hv
  obtain ⟨p, hp, hpair⟩ := Option.map_eq_some_iff.1 hv
  have hfront : front (String.ofList cs) = some (n, []) := by
    rw [front, String.toList_ofList, hp, Option.map_some, hpair]
    rfl
  rw [read, hfront]

end GuardTree.Json

namespace GuardTree.Document

set_option autoImplicit false

open Json (Layout)

theorem parse_json_ok {text : String} {n : Node} (h : Json.read text = .ok n) :
    (parse .json text).outcome = .ok n := by
  simp [parse, h, Traced.note]
  rfl

/-- What is written as JSON, on one line or on many, is a layout. -/
theorem layout_write {n : Node} (h : n.FloatFree) (compact : Bool) :
    Layout n (write .json compact n).toList := by
  cases compact with
  | false => simpa [write, Json.pretty] using Json.layout_pretty 0 h
  | true => simpa [write, Json.compact] using Json.layout_compact h

/-- Nothing is cut off at the end of a written tree. -/
theorem render_eq_write {n : Node} (h : n.FloatFree) (compact : Bool) :
    render .json compact n = write .json compact n := by
  obtain ⟨r, c, hc, hspace⟩ := (layout_write h compact).eq_append
  rw [render, hc, Text.trimEnd_append_of_not_isSpace r hspace, ← hc, String.ofList_toList]

theorem parse_write {n : Node} (hf : n.FloatFree) (hd : n.DistinctKeys) (hn : n.nesting ≤ 127)
    (compact : Bool) : (parse .json (write .json compact n)).outcome = .ok n := by
  have h := Json.read_of_layout (layout_write hf compact) hd hn
  rw [String.ofList_toList] at h
  exact parse_json_ok h

/-- **JSON is read back as the tree it was written from.** A tree without floating-point numbers
that nests at most 127 deep and has no key twice in a mapping is the outcome of parsing its text on
one line, its text on many lines, and either of them as it is shown; and nothing is cut off at the
end of what is shown. -/
theorem parse_render_json {n : Node} (hf : n.FloatFree) (hd : n.DistinctKeys)
    (hn : n.nesting ≤ 127) :
    (parse .json (Json.compact n)).outcome = .ok n ∧ (parse .json (Json.pretty n)).outcome = .ok n ∧
      ∀ compact, render .json compact n = write .json compact n ∧
        (parse .json (render .json compact n)).outcome = .ok n := by
  refine ⟨parse_write hf hd hn true, parse_write hf hd hn false, fun compact => ?_⟩
  have hrender := render_eq_write hf compact
  refine ⟨hrender, ?_⟩
  rw [hrender]
  exact parse_write hf hd hn compact

/-- Escapes in a key, the least integer, empty containers and a string of white space. -/
theorem parse_render_json_escaped_key :
    let n : Node := .mapping
      [("\"\\\n\x01", .list [.scalar (.integer (-9223372036854775808)), .mapping [], .list []]),
        ("", .scalar (.string " \n"))]
    (n.FloatFree ∧ n.DistinctKeys ∧ n.nesting ≤ 127) ∧
      (parse .json (Json.compact n)).outcome = .ok n ∧
      (parse .json (Json.pretty n)).outcome = .ok n ∧
      ∀ compact, render .json compact n = write .json compact n ∧
        (parse .json (render .json compact n)).outcome = .ok n := by
  intro n
  have hf : n.FloatFree := by
    refine .mapping ?_
    simp only [List.forall_mem_cons, List.not_mem_nil, false_implies, implies_true, and_true]
    refine ⟨.list ?_, .scalar nofun⟩
    simp only [List.forall_mem_cons, List.not_mem_nil, false_implies, implies_true, and_true]
    exact ⟨.scalar nofun, .mapping nofun, .list nofun⟩
  have hd : n.DistinctKeys := by
    refine .mapping (by decide) ?_
    simp only [List.forall_mem_cons, List.not_mem_nil, false_implies, implies_true, and_true]
    refine ⟨.list ?_, .scalar _⟩
    simp only [List.forall_mem_cons, List.not_mem_nil, false_implies, implies_true, and_true]
    exact ⟨.scalar _, .mapping List.nodup_nil nofun, .list nofun⟩
  have hn : n.nesting ≤ 127 := by decide
  exact ⟨⟨hf, hd, hn⟩, parse_render_json hf hd hn⟩

end GuardTree.Document
