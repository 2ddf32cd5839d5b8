import GuardTree.Proofs.Json.Front
import GuardTree.Proofs.Tree.Collecting
import GuardTree.Yaml.Reader

/-! # The mappings that documents denote

An object of a JSON text or a mapping of a YAML document is a sequence of pairs, in which a key may
come again; in YAML, keys that differ may also come to have the same text. What is read is the
mapping collected from these pairs: `Json.Object` and `Yaml.Loads` say what the pairs are, and
`valueAt_mapping_iff` and `node_mapping_iff` what becomes of them.
-/

namespace GuardTree

set_option autoImplicit false

open EntryList

/-! ## JSON -/

namespace Json

variable {room : Nat} {cs r rest key : List Char} {n : Node} {ps es : List (String × Node)}

/-- A pair at the front of a text. -/
def Pair (room : Nat) (cs : List Char) (p : String × Node) (rest : List Char) : Prop :=
  ∃ r key r₁ r₂, skipBlanks cs = '"' :: r ∧ stringBody? r = some (key, r₁) ∧
    skipBlanks r₁ = ':' :: r₂ ∧ valueAt room r₂ = some (p.2, rest) ∧ p.1 = String.ofList key

/-- The pairs at the front of a text up to the closing brace, at least one. -/
inductive Pairs (room : Nat) : List Char → List (String × Node) → List Char → Prop
  | last {cs r rest : List Char} {p : String × Node} (hp : Pair room cs p r)
      (hend : skipBlanks r = '\x7d' :: rest) : Pairs room cs [p] rest
  | more {cs r r' rest : List Char} {p : String × Node} {ps : List (String × Node)}
      (hp : Pair room cs p r) (hcomma : skipBlanks r = ',' :: r') (h : Pairs room r' ps rest) :
      Pairs room cs (p :: ps) rest

/-- An object at the front of a text, with its pairs in the order of the text. -/
inductive Object : Nat → List Char → List (String × Node) → List Char → Prop
  | empty {room : Nat} {cs r rest : List Char} (hopen : skipBlanks cs = '\x7b' :: r)
      (hend : skipBlanks r = '\x7d' :: rest) : Object (room + 1) cs [] rest
  | pairs {room : Nat} {cs r rest : List Char} {ps : List (String × Node)}
      (hopen : skipBlanks cs = '\x7b' :: r) (h : Pairs room r ps rest) :
      Object (room + 1) cs ps rest

theorem pairsAt_some_iff : pairsAt room cs = some (ps, rest) ↔
    ∃ p r, Pair room cs p r ∧ afterPair room p (skipBlanks r) = some (ps, rest) := by
  rw [pairsAt_eq]
  constructor
  · intro h
    split at h
    case h_1 r hr =>
      obtain ⟨⟨key, r₁⟩, hkey, h⟩ := Option.bind_eq_some_iff.1 h
      dsimp only at h
      split at h
      case h_1 r₂ hcolon =>
        obtain ⟨⟨n, r₃⟩, hn, h⟩ := Option.bind_eq_some_iff.1 h
        exact ⟨(String.ofList key, n), r₃, ⟨r, key, r₁, r₂, hr, hkey, hcolon, hn, rfl⟩, h⟩
      case h_2 => cases h
    case h_2 => cases h
  · rintro ⟨⟨_, n⟩, r₃, ⟨r, key, r₁, r₂, hr, hkey, hcolon, hn, rfl⟩, h⟩
    simp only [hr, hkey, Option.bind_some, hcolon, hn, h]

theorem afterPair_some_iff {p : String × Node} : afterPair room p cs = some (ps, rest) ↔
    cs = '\x7d' :: rest ∧ ps = [p] ∨
      ∃ r ps', cs = ',' :: r ∧ pairsAt room r = some (ps', rest) ∧ ps = p :: ps' := by
  constructor
  · intro h
    unfold afterPair at h
    split at h
    case h_1 =>
      cases h
      exact .inl ⟨rfl, rfl⟩
    case h_2 r =>
      obtain ⟨⟨ps', r'⟩, hps, h⟩ := Option.map_eq_some_iff.1 h
      cases h
      exact .inr ⟨r, ps', rfl, hps, rfl⟩
    case h_3 => cases h
  · rintro (⟨rfl, rfl⟩ | ⟨r, ps', rfl, hps, rfl⟩)
    · rfl
    · rw [afterPair, hps]
      rfl

theorem pairs_iff : Pairs room cs ps rest ↔ pairsAt room cs = some (ps, rest) := by
  constructor
  · intro h
    induction h with
    | last hp hend => exact pairsAt_some_iff.2 ⟨_, _, hp, afterPair_some_iff.2 (.inl ⟨hend, rfl⟩)⟩
    | more hp hcomma _ ih =>
      exact pairsAt_some_iff.2 ⟨_, _, hp, afterPair_some_iff.2 (.inr ⟨_, _, hcomma, ih, rfl⟩)⟩
  · intro h
    induction ps generalizing cs with
    | nil =>
      obtain ⟨p, r, -, h⟩ := pairsAt_some_iff.1 h
      obtain ⟨-, h⟩ | ⟨_, _, -, -, h⟩ := afterPair_some_iff.1 h <;> cases h
    | cons p ps ih =>
      obtain ⟨p, r, hp, h⟩ := pairsAt_some_iff.1 h
      obtain ⟨hend, h⟩ | ⟨r', ps', hcomma, hps, h⟩ := afterPair_some_iff.1 h
      · cases h
        exact .last hp hend
      · cases h
        exact .more hp hcomma (ih hps)

theorem Pairs.front (h : Pairs room cs ps rest) : ∃ r, skipBlanks cs = '"' :: r := by
  cases h with
  | last hp | more hp =>
    obtain ⟨r, _, _, _, hr, -⟩ := hp
    exact ⟨r, hr⟩

theorem valueAt_of_object (h : Object room cs ps rest) :
    valueAt room cs = some (.ofMap (.ofList ps), rest) := by
  rw [valueAt_eq]
  cases h with
  | empty hopen hend => simp only [hopen, hend]; rfl
  | pairs hopen h =>
    obtain ⟨r, hr⟩ := h.front
    simp only [hopen, hr, pairs_iff.1 h]
    rfl

theorem object_of_valueAt (h : valueAt room cs = some (.mapping es, rest)) :
    ∃ ps, Object room cs ps rest ∧ (OrderedMap.ofList ps).toList = es := by
  rw [valueAt_eq] at h
  split at h
  case h_1 =>
    split at h
    · cases h
    · split at h
      · cases h
      · obtain ⟨_, -, h⟩ := Option.map_eq_some_iff.1 h
        cases h
  case h_2 r hopen =>
    split at h
    · cases h
    case h_2 room =>
      split at h
      case h_1 hend =>
        cases h
        exact ⟨[], .empty hopen hend, rfl⟩
      case h_2 =>
        obtain ⟨⟨ps, r'⟩, hps, h⟩ := Option.map_eq_some_iff.1 h
        cases h
        exact ⟨ps, .pairs hopen (pairs_iff.2 hps), rfl⟩
  case h_3 =>
    obtain ⟨_, -, h⟩ := Option.map_eq_some_iff.1 h
    cases h

theorem valueAt_mapping_iff : valueAt room cs = some (.mapping es, rest) ↔
    ∃ ps, Object room cs ps rest ∧ Collects ps es := by
  simp only [OrderedMap.collects_ofList_iff]
  constructor
  · exact object_of_valueAt
  · rintro ⟨ps, h, rfl⟩
    exact valueAt_of_object h

end Json

/-! ## YAML -/

namespace Yaml

/-- The text that a tree is as a key: that of what the scalar denotes. -/
def KeyText (targets : Targets) (t : Tree Nat) (left : Nat) (key : String) (left' : Nat) : Prop :=
  ∃ anchor tag text plain resolved,
    (Build.follow targets t).run left = some (.scalar anchor tag text plain, left') ∧
      resolveTagged tag plain text = some resolved ∧ resolved.key? text = some key

/-- The pairs that a mapping's pairs of trees denote. Of the aliases that may be followed, `left`
and `left'` are left before and after them. -/
inductive Loads (targets : Targets) (room : Nat) :
    Nat → List (Tree Nat × Tree Nat) → List (String × Node) → Nat → Prop
  | nil (left : Nat) : Loads targets room left [] [] left
  | cons {left left₁ left₂ left' : Nat} {k v : Tree Nat} {key : String} {n : Node}
      {trees : List (Tree Nat × Tree Nat)} {ps : List (String × Node)}
      (hk : KeyText targets k left key left₁)
      (hv : (Build.node targets room v).run left₁ = some (n, left₂))
      (h : Loads targets room left₂ trees ps left') :
      Loads targets room left ((k, v) :: trees) ((key, n) :: ps) left'

variable {targets : Targets} {room left left' : Nat} {t : Tree Nat} {key : String}
  {trees : List (Tree Nat × Tree Nat)} {ps es : List (String × Node)}

theorem run_bind_some_iff {α β : Type} {x : Build α} {f : α → Build β} {b : β} :
    (x >>= f).run left = some (b, left') ↔
      ∃ a left₁, x.run left = some (a, left₁) ∧ (f a).run left₁ = some (b, left') := by
  rw [StateT.run_bind, Option.bind_eq_bind, Option.bind_eq_some_iff, Prod.exists]

theorem run_pure_some_iff {α : Type} {a b : α} :
    (pure a : Build α).run left = some (b, left') ↔ a = b ∧ left = left' := by
  rw [StateT.run_pure, Option.pure_def, Option.some.injEq, Prod.mk.injEq]

theorem run_lift_some_iff {α : Type} {x : Option α} {b : α} :
    (StateT.lift x : Build α).run left = some (b, left') ↔ x = some b ∧ left = left' := by
  cases x with
  | none => simp [StateT.run_lift]
  | some => simp [StateT.run_lift]

theorem run_map_some_iff {α β : Type} {f : α → β} {x : Build α} {b : β} :
    (f <$> x).run left = some (b, left') ↔ ∃ a, x.run left = some (a, left') ∧ f a = b := by
  simp [StateT.run_map]

theorem key_run_iff :
    (Build.key targets t).run left = some (key, left') ↔ KeyText targets t left key left' := by
  unfold Build.key
  rw [run_bind_some_iff]
  constructor
  · rintro ⟨t', left₁, hfollow, h⟩
    split at h
    case h_1 anchor tag text plain =>
      obtain ⟨hscalar, rfl⟩ := run_lift_some_iff.1 h
      obtain ⟨resolved, hresolved, hkey⟩ := Option.bind_eq_some_iff.1 hscalar
      exact ⟨anchor, tag, text, plain, resolved, hfollow, hresolved, hkey⟩
    case h_2 => cases h
  · rintro ⟨anchor, tag, text, plain, resolved, hfollow, hresolved, hkey⟩
    refine ⟨_, left', hfollow, run_lift_some_iff.2 ⟨?_, rfl⟩⟩
    rw [hresolved, Option.bind_some, hkey]

theorem loads_iff : Loads targets room left trees ps left' ↔
    (trees.mapM fun (k, v) => do
      let key ← Build.key targets k
      return (key, ← Build.node targets room v)).run left = some (ps, left') := by
  induction trees generalizing left ps with
  | nil =>
    rw [List.mapM_nil, run_pure_some_iff]
    constructor
    · rintro ⟨⟩
      exact ⟨rfl, rfl⟩
    · rintro ⟨rfl, rfl⟩
      exact .nil left
  | cons tree trees ih =>
    obtain ⟨k, v⟩ := tree
    simp only [List.mapM_cons, run_bind_some_iff, run_pure_some_iff, key_run_iff]
    constructor
    · intro h
      cases h with
      | cons hk hv h =>
        exact ⟨_, _, ⟨_, _, hk, _, _, hv, rfl, rfl⟩, _, _, ih.1 h, rfl, rfl⟩
    · rintro ⟨_, _, ⟨key, left₁, hk, n, left₂, hv, rfl, rfl⟩, ps', left₃, h, rfl, rfl⟩
      exact .cons hk hv (ih.2 h)

theorem node_mapping_iff : (Build.node targets room t).run left = some (.mapping es, left') ↔
    ∃ room' anchor tag trees left₁ ps, room = room' + 1 ∧
      (Build.follow targets t).run left = some (.mapping anchor tag trees, left₁) ∧
        tag ≠ some .application ∧ Loads targets room' left₁ trees ps left' ∧ Collects ps es := by
  rw [Build.node.eq_def, run_bind_some_iff]
  simp only [OrderedMap.collects_ofList_iff, loads_iff]
  constructor
  · rintro ⟨t', left₁, hfollow, h⟩
    split at h
    case h_1 =>
      obtain ⟨_, -, h⟩ := run_map_some_iff.1 h
      cases h
    case h_2 =>
      split at h
      · cases h
      · split at h
        · cases h
        · obtain ⟨_, _, -, h⟩ := run_bind_some_iff.1 h
          cases h
    case h_3 anchor tag trees =>
      split at h
      · cases h
      case h_2 room =>
        split at h
        · cases h
        case isFalse htag =>
          obtain ⟨ps, left₂, hps, h⟩ := run_bind_some_iff.1 h
          cases h
          exact ⟨room, anchor, tag, trees, left₁, ps, rfl, hfollow, by simpa using htag, hps, rfl⟩
    case h_4 => cases h
  · rintro ⟨room', anchor, tag, trees, left₁, ps, rfl, hfollow, htag, hps, rfl⟩
    refine ⟨_, _, hfollow, ?_⟩
    dsimp only
    rw [if_neg (by simpa using htag), run_bind_some_iff]
    exact ⟨ps, left', hps, rfl⟩

end Yaml

/-! ## Both -/

namespace Document

/-- **Mappings keep first places and last values.** Collecting pairs leaves each key once, where it
first occurs, with the value of its last pair; entries that are collected again stay as they are;
and pairs may be collected in two goes. What is read for an object of JSON or a mapping of YAML is
collected from its pairs, once the keys of YAML are texts. -/
theorem mappings_collect_pairs :
    (∀ ps es : List (String × Node), (OrderedMap.ofList ps).toList = es ↔ Collects ps es) ∧
      (∀ m : OrderedMap Node, Node.ofMap (.ofList m.toList) = Node.ofMap m) ∧
      (∀ xs ys : List (String × Node), Node.ofMap (.ofList (xs ++ ys)) =
        Node.ofMap (.ofList ((OrderedMap.ofList xs).toList ++ ys))) ∧
      (∀ room cs es rest, Json.valueAt room cs = some (.mapping es, rest) ↔
        ∃ ps, Json.Object room cs ps rest ∧ Collects ps es) ∧
      ∀ targets room t left es left',
        (Yaml.Build.node targets room t).run left = some (.mapping es, left') ↔
          ∃ room' anchor tag trees left₁ ps, room = room' + 1 ∧
            (Yaml.Build.follow targets t).run left = some (.mapping anchor tag trees, left₁) ∧
              tag ≠ some .application ∧ Yaml.Loads targets room' left₁ trees ps left' ∧
                Collects ps es :=
  ⟨fun _ _ => OrderedMap.collects_ofList_iff.symm,
    fun m => congrArg Node.mapping m.toList_ofList_toList,
    fun xs ys => congrArg Node.mapping (OrderedMap.toList_ofList_append xs ys),
    fun _ _ _ _ => Json.valueAt_mapping_iff, fun _ _ _ _ _ _ => Yaml.node_mapping_iff⟩

end Document

end GuardTree
