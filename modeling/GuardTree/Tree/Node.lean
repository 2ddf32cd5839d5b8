import GuardTree.Decimal.Report
import GuardTree.Text.Quoted
import GuardTree.Tree.OrderedMap

/-! # Configuration trees

A `Node` is a scalar, a list or a mapping. The order of a mapping's entries is part of the tree,
since it decides between guards. Trees that are read or reduced have distinct keys in every mapping
(`Node.DistinctKeys`); an `OrderedMap` is used where a mapping is built up.
-/

namespace GuardTree

set_option autoImplicit false

inductive Scalar
  | null
  | bool (b : Bool)
  | integer (n : Int64)
  | float (x : Float)
  | string (s : String)
deriving DecidableEq

/-- A configuration tree. -/
inductive Node
  | scalar (s : Scalar)
  | list (items : List Node)
  | mapping (entries : List (String × Node))

/-- The kinds of nodes, as messages name them. -/
inductive NodeKind
  | null
  | bool
  | integer
  | float
  | string
  | list
  | mapping
deriving DecidableEq

def NodeKind.name : NodeKind → String
  | .null => "null"
  | .bool => "bool"
  | .integer => "integer"
  | .float => "float"
  | .string => "string"
  | .list => "list"
  | .mapping => "mapping"

/-- Equality of leaves: the same kind and the same value, two floating-point numbers being compared
as numbers. -/
def Scalar.same : Scalar → Scalar → Bool
  | .float x, .float y => x == y
  | a, b => a == b

/-- The text of a leaf as it stands in a report of the tree's structure. -/
def Scalar.describe : Scalar → String
  | .null => "Null"
  | .bool b => "Bool(" ++ toString b ++ ")"
  | .integer n => "Integer(" ++ toString n.toInt ++ ")"
  | .float x => "Float(" ++ Decimal.report.write x ++ ")"
  | .string s => "String(" ++ Text.quoted s ++ ")"

namespace Node

def null : Node := .scalar .null

def kind : Node → NodeKind
  | .scalar .null => .null
  | .scalar (.bool _) => .bool
  | .scalar (.integer _) => .integer
  | .scalar (.float _) => .float
  | .scalar (.string _) => .string
  | .list _ => .list
  | .mapping _ => .mapping

def entries? : Node → Option (List (String × Node))
  | .mapping es => some es
  | _ => none

def string? : Node → Option String
  | .scalar (.string s) => some s
  | _ => none

/-- The mapping that an ordered map holds. -/
def ofMap (m : OrderedMap Node) : Node := .mapping m.toList

mutual

/-- Equality of trees: the same kinds, values and order of entries. -/
def same : Node → Node → Bool
  | .scalar a, .scalar b => a.same b
  | .list as, .list bs => sameItems as bs
  | .mapping as, .mapping bs => sameEntries as bs
  | _, _ => false

/-- Equality of lists, item by item. -/
def sameItems : List Node → List Node → Bool
  | [], [] => true
  | a :: as, b :: bs => same a b && sameItems as bs
  | _, _ => false

/-- Equality of sequences of entries, entry by entry. -/
def sameEntries : List (String × Node) → List (String × Node) → Bool
  | [], [] => true
  | (j, a) :: as, (k, b) :: bs => j == k && same a b && sameEntries as bs
  | _, _ => false

end

mutual

def describe : Node → String
  | .scalar s => "Scalar(" ++ s.describe ++ ")"
  | .list [] => "List([])"
  | .list (item :: items) => "List([" ++ describe item ++ describeItems items ++ "])"
  | .mapping entries => "Mapping(" ++ describeMapping entries ++ ")"

/-- The further items of a list in a report. -/
def describeItems : List Node → String
  | [] => ""
  | item :: items => ", " ++ describe item ++ describeItems items

/-- The entries of a mapping in a report, between braces. -/
def describeMapping : List (String × Node) → String
  | [] => "\x7b\x7d"
  | (key, value) :: entries =>
    "\x7b" ++ Text.quoted key ++ ": " ++ describe value ++ describeEntries entries ++ "\x7d"

/-- The further entries of a mapping in a report. -/
def describeEntries : List (String × Node) → String
  | [] => ""
  | (key, value) :: entries =>
    ", " ++ Text.quoted key ++ ": " ++ describe value ++ describeEntries entries

end

/-- No mapping of the tree, lists included, has a key twice. -/
inductive DistinctKeys : Node → Prop
  | scalar (s : Scalar) : DistinctKeys (.scalar s)
  | list {items : List Node} (h : ∀ n ∈ items, DistinctKeys n) : DistinctKeys (.list items)
  | mapping {entries : List (String × Node)} (distinct : (entries.map Prod.fst).Nodup)
      (h : ∀ e ∈ entries, DistinctKeys e.2) : DistinctKeys (.mapping entries)

/-- A tree without floating-point numbers. -/
inductive FloatFree : Node → Prop
  | scalar {s : Scalar} (h : ∀ x, s ≠ .float x) : FloatFree (.scalar s)
  | list {items : List Node} (h : ∀ n ∈ items, FloatFree n) : FloatFree (.list items)
  | mapping {entries : List (String × Node)} (h : ∀ e ∈ entries, FloatFree e.2) :
      FloatFree (.mapping entries)

end Node

end GuardTree
