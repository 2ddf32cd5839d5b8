import GuardTree.Decimal.Report

/-! # Values of guard expressions

A value is nothing, a boolean, a number, a text or a list of values. Integers and floating-point
numbers are one family for equality and order; no other kinds mix.
-/

namespace GuardTree.Formula

set_option autoImplicit false

inductive Value
  | none
  | bool (b : Bool)
  | int (n : Int64)
  | float (x : Float)
  | str (s : String)
  | list (items : List Value)

/-- The kinds of values, as messages name them. -/
inductive Kind
  | none
  | bool
  | int
  | float
  | string
  | list
deriving DecidableEq

def Kind.name : Kind → String
  | .none => "none"
  | .bool => "bool"
  | .int => "int"
  | .float => "float"
  | .string => "string"
  | .list => "list"

namespace Value

def kind : Value → Kind
  | .none => .none
  | .bool _ => .bool
  | .int _ => .int
  | .float _ => .float
  | .str _ => .string
  | .list _ => .list

/-- Whether a value counts as true in `and`, `or` and `not`: nothing, zero, the empty text and the
empty list do not. -/
def truthy : Value → Bool
  | .none => false
  | .bool b => b
  | .int n => n != 0
  | .float x => x != 0.0
  | .str s => !s.isEmpty
  | .list items => !items.isEmpty

/-- The boolean itself, and nothing for a value of another kind. -/
def bool? : Value → Option Bool
  | .bool b => some b
  | _ => Option.none

/-- The value as a floating-point number, if it is a number. -/
def float? : Value → Option Float
  | .int n => some (Float.ofInt n.toInt)
  | .float x => some x
  | _ => Option.none

mutual

/-- Equality of values. Two integers are compared exactly, an integer and a floating-point number as
floating-point numbers, lists item by item; values of other kinds are equal only within their
kind. -/
def equal : Value → Value → Bool
  | .none, .none => true
  | .bool a, .bool b => a == b
  | .int a, .int b => a == b
  | .int a, .float b => Float.ofInt a.toInt == b
  | .float a, .int b => a == Float.ofInt b.toInt
  | .float a, .float b => a == b
  | .str a, .str b => a == b
  | .list as, .list bs => equalAll as bs
  | _, _ => false

/-- Equality of lists: the same length, and equal items in the same places. -/
def equalAll : List Value → List Value → Bool
  | [], [] => true
  | a :: as, b :: bs => equal a b && equalAll as bs
  | _, _ => false

end

mutual

/-- The text of a value. Texts stand between apostrophes, their characters unchanged. -/
def display : Value → String
  | .none => "None"
  | .bool true => "True"
  | .bool false => "False"
  | .int n => toString n.toInt
  | .float x => Decimal.report.write x
  | .str s => "'" ++ s ++ "'"
  | .list [] => "[]"
  | .list (item :: items) => "[" ++ display item ++ displayRest items ++ "]"

/-- The further items of a list, each after a comma and a space. -/
def displayRest : List Value → String
  | [] => ""
  | item :: items => ", " ++ display item ++ displayRest items

end

end Value

end GuardTree.Formula
