import GuardTree.Json.Reader

/-! # The reader without its bounds

The readers of values, items and pairs carry a bound on the text that they leave, by which they
terminate. Here they are taken without it, and each satisfies the equation it was written by.
-/

namespace GuardTree.Json

set_option autoImplicit false

def valueAt (room : Nat) (cs : List Char) : Option (Node × List Char) :=
  (value room cs).map Subtype.val

def itemsAt (room : Nat) (cs : List Char) : Option (List Node × List Char) :=
  (items room cs).map Subtype.val

def pairsAt (room : Nat) (cs : List Char) : Option (List (String × Node) × List Char) :=
  (pairs room cs).map Subtype.val

theorem valueAt_eq (room : Nat) (cs : List Char) : valueAt room cs =
    match skipBlanks cs with
    | '[' :: r =>
      match room with
      | 0 => none
      | room + 1 =>
        match skipBlanks r with
        | ']' :: r' => some (.list [], r')
        | _ => (itemsAt room r).map fun (ns, r') => (.list ns, r')
    | '\x7b' :: r =>
      match room with
      | 0 => none
      | room + 1 =>
        match skipBlanks r with
        | '\x7d' :: r' => some (.mapping [], r')
        | _ => (pairsAt room r).map fun (ps, r') => (.ofMap (.ofList ps), r')
    | r => (leaf? r).map fun (s, r') => (.scalar s, r') := by
  unfold valueAt value
  split
  case h_1 r h =>
    simp only [h]
    cases room with
    | zero => rfl
    | succ room =>
      dsimp only
      split
      case h_1 r' h' => simp only [h']; rfl
      case h_2 h' =>
        simp only [itemsAt]
        cases items room r <;> rfl
  case h_2 r h =>
    simp only [h]
    cases room with
    | zero => rfl
    | succ room =>
      dsimp only
      split
      case h_1 r' h' => simp only [h']; rfl
      case h_2 h' =>
        simp only [pairsAt]
        cases pairs room r <;> rfl
  case h_3 =>
    split
    case h_1 h => simp [h]
    case h_2 h => simp [h]

/-- The items of an array from one that has been read, by what comes after it. -/
def afterItem (room : Nat) (n : Node) : List Char → Option (List Node × List Char)
  | ']' :: r => some ([n], r)
  | ',' :: r => (itemsAt room r).map fun (ns, r') => (n :: ns, r')
  | _ => none

/-- The pairs of an object from one that has been read, by what comes after it. -/
def afterPair (room : Nat) (p : String × Node) :
    List Char → Option (List (String × Node) × List Char)
  | '\x7d' :: r => some ([p], r)
  | ',' :: r => (pairsAt room r).map fun (ps, r') => (p :: ps, r')
  | _ => none

theorem itemsAt_eq (room : Nat) (cs : List Char) :
    itemsAt room cs = (valueAt room cs).bind fun (n, r) => afterItem room n (skipBlanks r) := by
  rw [itemsAt, items, valueAt]
  cases value room cs with
  | none => rfl
  | some p =>
    simp only [Option.bind_eq_bind, Option.bind_some, Option.map_some, afterItem]
    split
    case h_1 h => simp only [h]; rfl
    case h_2 r' h =>
      simp only [h, itemsAt]
      cases items room r' <;> rfl
    case h_3 => split <;> simp_all

theorem pairsAt_eq (room : Nat) (cs : List Char) : pairsAt room cs =
    match skipBlanks cs with
    | '"' :: r =>
      (stringBody? r).bind fun (key, r₁) =>
        match skipBlanks r₁ with
        | ':' :: r₂ =>
          (valueAt room r₂).bind fun (n, r₃) =>
            afterPair room (String.ofList key, n) (skipBlanks r₃)
        | _ => none
    | _ => none := by
  rw [pairsAt, pairs]
  split
  case h_1 r h =>
    simp only [h]
    split
    case h_1 h₁ => simp only [h₁]; rfl
    case h_2 key r₁ h₁ =>
      simp only [h₁, Option.bind_some]
      split
      case h_1 r₂ h₂ =>
        simp only [h₂, valueAt]
        cases value room r₂ with
        | none => rfl
        | some p =>
          simp only [Option.bind_eq_bind, Option.bind_some, Option.map_some, afterPair]
          split
          case h_1 h₄ => simp only [h₄]; rfl
          case h_2 r₄ h₄ =>
            simp only [h₄, pairsAt]
            cases pairs room r₄ <;> rfl
          case h_3 => split <;> simp_all
      case h_2 => split <;> simp_all
  case h_2 => split <;> simp_all

end GuardTree.Json
