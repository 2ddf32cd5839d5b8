import GuardTree.Proofs.Json.Leaf

/-! # Layouts of a tree in JSON

`Layout n cs`: the text `cs` shows the tree `n`, with any blanks where JSON allows them. The two
writers differ in these blanks only: what each of them writes is a layout (`layout_compact`,
`layout_pretty`). A leaf has one text, so a tree with a floating-point number has no layout.
-/

namespace GuardTree

set_option autoImplicit false

namespace Node

mutual

/-- How deep lists and mappings nest; a leaf does not count. -/
def nesting : Node → Nat
  | .scalar _ => 0
  | .list items => 1 + nestingItems items
  | .mapping entries => 1 + nestingEntries entries

def nestingItems : List Node → Nat
  | [] => 0
  | item :: items => max item.nesting (nestingItems items)

def nestingEntries : List (String × Node) → Nat
  | [] => 0
  | (_, value) :: entries => max value.nesting (nestingEntries entries)

end

end Node

namespace Json

/-- A text of blanks only. -/
def Blanks (cs : List Char) : Prop := ∀ c ∈ cs, isBlank c = true

mutual

inductive Layout : Node → List Char → Prop
  | scalar {s : Scalar} (hs : ∀ x, s ≠ .float x) : Layout (.scalar s) (scalar s)
  | emptyList {b : List Char} (hb : Blanks b) : Layout (.list []) ('[' :: b ++ [']'])
  | list {items : List Node} {cs : List Char} (h : LayoutItems items cs) :
      Layout (.list items) ('[' :: cs ++ [']'])
  | emptyMapping {b : List Char} (hb : Blanks b) :
      Layout (.mapping []) ('\x7b' :: b ++ ['\x7d'])
  | mapping {entries : List (String × Node)} {cs : List Char} (h : LayoutEntries entries cs) :
      Layout (.mapping entries) ('\x7b' :: cs ++ ['\x7d'])

/-- The items of a list, at least one. -/
inductive LayoutItems : List Node → List Char → Prop
  | last {n : Node} {b cs b' : List Char} (hb : Blanks b) (h : Layout n cs) (hb' : Blanks b') :
      LayoutItems [n] (b ++ cs ++ b')
  | cons {n : Node} {b cs b' : List Char} (hb : Blanks b) (h : Layout n cs) (hb' : Blanks b')
      {items : List Node} {ds : List Char} (hs : LayoutItems items ds) :
      LayoutItems (n :: items) (b ++ cs ++ b' ++ ',' :: ds)

/-- The entries of a mapping, at least one. -/
inductive LayoutEntries : List (String × Node) → List Char → Prop
  | last {n : Node} {b₁ b₂ b₃ cs b₄ : List Char} (hb₁ : Blanks b₁) (key : String)
      (hb₂ : Blanks b₂) (hb₃ : Blanks b₃) (h : Layout n cs) (hb₄ : Blanks b₄) :
      LayoutEntries [(key, n)] (b₁ ++ string key ++ b₂ ++ ':' :: b₃ ++ cs ++ b₄)
  | cons {n : Node} {b₁ b₂ b₃ cs b₄ : List Char} (hb₁ : Blanks b₁) (key : String)
      (hb₂ : Blanks b₂) (hb₃ : Blanks b₃) (h : Layout n cs) (hb₄ : Blanks b₄)
      {entries : List (String × Node)} {ds : List Char} (hs : LayoutEntries entries ds) :
      LayoutEntries ((key, n) :: entries)
        (b₁ ++ string key ++ b₂ ++ ':' :: b₃ ++ cs ++ b₄ ++ ',' :: ds)

end

/-! ## What the writers write -/

theorem blanks_nil : Blanks [] := fun _ hc => nomatch hc

theorem blanks_newLine (depth : Nat) : Blanks (newLine depth) := by
  intro c hc
  rcases List.mem_cons.1 hc with rfl | hc
  · rfl
  · rw [List.eq_of_mem_replicate hc]
    rfl

theorem blanks_space : Blanks [' '] := by
  intro c hc
  rw [List.mem_singleton.1 hc]
  rfl

mutual

theorem layout_compact : ∀ {n : Node}, n.FloatFree → Layout n (compactChars n)
  | .scalar _, .scalar hs => .scalar hs
  | .list [], _ => .emptyList blanks_nil
  | .list (_ :: items), .list h => .list (by
      have hn := layout_compact (h _ List.mem_cons_self)
      exact layoutItems_compact (fun m hm => h m (List.mem_cons_of_mem _ hm)) hn)
  | .mapping [], _ => .emptyMapping blanks_nil
  | .mapping ((key, _) :: entries), .mapping h => by
      have hn := layout_compact (h _ List.mem_cons_self)
      have hs := layoutEntries_compact key (fun e he => h e (List.mem_cons_of_mem _ he)) hn
      exact .mapping hs

/-- The first item, laid out in some way, and the further items. -/
theorem layoutItems_compact : ∀ {items : List Node}, (∀ n ∈ items, n.FloatFree) →
    ∀ {n : Node} {cs : List Char}, Layout n cs → LayoutItems (n :: items) (cs ++ compactItems items)
  | [], _, _, _, hn => .last blanks_nil hn blanks_nil
  | m :: items, h, n, cs, hn => by
      have hm := layout_compact (h m List.mem_cons_self)
      have hs := layoutItems_compact (fun m hm => h m (List.mem_cons_of_mem _ hm)) hm
      simpa [compactItems] using LayoutItems.cons blanks_nil hn blanks_nil hs

theorem layoutEntries_compact (key : String) : ∀ {entries : List (String × Node)},
    (∀ e ∈ entries, e.2.FloatFree) → ∀ {n : Node} {cs : List Char}, Layout n cs →
      LayoutEntries ((key, n) :: entries) (string key ++ ':' :: cs ++ compactEntries entries)
  | [], _, _, _, hn => by
      simpa [compactEntries] using
        LayoutEntries.last blanks_nil key blanks_nil blanks_nil hn blanks_nil
  | (key', m) :: entries, h, n, cs, hn => by
      have hm := layout_compact (h (key', m) List.mem_cons_self)
      have hs := layoutEntries_compact key' (fun e he => h e (List.mem_cons_of_mem _ he)) hm
      simpa [compactEntries] using
        LayoutEntries.cons blanks_nil key blanks_nil blanks_nil hn blanks_nil hs

end

mutual

theorem layout_pretty (depth : Nat) : ∀ {n : Node}, n.FloatFree → Layout n (prettyChars depth n)
  | .scalar _, .scalar hs => .scalar hs
  | .list [], _ => .emptyList blanks_nil
  | .list (m :: items), .list h => by
      have hn := layout_pretty (depth + 1) (h m List.mem_cons_self)
      have hs := layoutItems_pretty (depth + 1) (fun m hm => h m (List.mem_cons_of_mem _ hm)) hn
        (blanks_newLine depth)
      simpa [prettyChars] using Layout.list hs
  | .mapping [], _ => .emptyMapping blanks_nil
  | .mapping ((key, m) :: entries), .mapping h => by
      have hn := layout_pretty (depth + 1) (h (key, m) List.mem_cons_self)
      have hs := layoutEntries_pretty (depth + 1) key
        (fun e he => h e (List.mem_cons_of_mem _ he)) hn (blanks_newLine depth)
      simpa [prettyChars] using Layout.mapping hs

/-- The first item, laid out in some way, the further items and the blanks after the last one. -/
theorem layoutItems_pretty (depth : Nat) : ∀ {items : List Node}, (∀ n ∈ items, n.FloatFree) →
    ∀ {n : Node} {cs b : List Char}, Layout n cs → Blanks b →
      LayoutItems (n :: items) (newLine depth ++ cs ++ prettyItems depth items ++ b)
  | [], _, _, _, _, hn, hb => by
      simpa [prettyItems] using LayoutItems.last (blanks_newLine depth) hn hb
  | m :: items, h, n, cs, b, hn, hb => by
      have hm := layout_pretty depth (h m List.mem_cons_self)
      have hs := layoutItems_pretty depth (fun m hm => h m (List.mem_cons_of_mem _ hm)) hm hb
      simpa [prettyItems] using LayoutItems.cons (blanks_newLine depth) hn blanks_nil hs

theorem layoutEntries_pretty (depth : Nat) (key : String) : ∀ {entries : List (String × Node)},
    (∀ e ∈ entries, e.2.FloatFree) → ∀ {n : Node} {cs b : List Char}, Layout n cs → Blanks b →
      LayoutEntries ((key, n) :: entries)
        (newLine depth ++ string key ++ ':' :: ' ' :: cs ++ prettyEntries depth entries ++ b)
  | [], _, _, _, _, hn, hb => by
      simpa [prettyEntries] using
        LayoutEntries.last (blanks_newLine depth) key blanks_nil blanks_space hn hb
  | (key', m) :: entries, h, n, cs, b, hn, hb => by
      have hm := layout_pretty depth (h (key', m) List.mem_cons_self)
      have hs := layoutEntries_pretty depth key' (fun e he => h e (List.mem_cons_of_mem _ he)) hm hb
      simpa [prettyEntries] using
        LayoutEntries.cons (blanks_newLine depth) key blanks_nil blanks_space hn blanks_nil hs

end

/-! ## The ends of a layout -/

variable {n : Node} {cs : List Char}

/-- A layout starts with a character that is no blank and closes nothing. -/
theorem Layout.eq_cons (h : Layout n cs) :
    ∃ c r, cs = c :: r ∧ isBlank c = false ∧ c ∉ [']', '\x7d'] := by
  cases h with
  | scalar hs =>
    obtain ⟨c, r, hc, hb, hmem⟩ := scalar_eq_cons hs
    exact ⟨c, r, hc, hb, by simp_all⟩
  | emptyList _ => exact ⟨'[', _, rfl, by decide⟩
  | list _ => exact ⟨'[', _, rfl, by decide⟩
  | emptyMapping _ => exact ⟨'\x7b', _, rfl, by decide⟩
  | mapping _ => exact ⟨'\x7b', _, rfl, by decide⟩

/-- A layout does not end in white space. -/
theorem Layout.eq_append (h : Layout n cs) : ∃ r c, cs = r ++ [c] ∧ Text.isSpace c = false := by
  cases h with
  | scalar hs => exact scalar_eq_append hs
  | emptyList _ => exact ⟨_, ']', rfl, by decide⟩
  | list _ => exact ⟨_, ']', rfl, by decide⟩
  | emptyMapping _ => exact ⟨_, '\x7d', rfl, by decide⟩
  | mapping _ => exact ⟨_, '\x7d', rfl, by decide⟩

end Json

end GuardTree
