import Stencil.Number.Numeral

/-!
The data that templates are rendered against: plain data, and objects of the
host whose members are looked up on demand.
-/

namespace Stencil

/-- An object of the host. Its identity tells it from every other object;
`length` is present if the object can be iterated. -/
structure HostObject (α : Type) where
  identity : Nat
  typeName : String
  member? : String → Option α
  item? : Nat → Option α
  length : Option Nat
  text : String

/-- A template value. Maps are in key order. -/
inductive Value where
  | null
  | bool (b : Bool)
  | int (i : Int64)
  | float (x : Binary64)
  | string (s : String)
  | list (items : List Value)
  | map (entries : List (String × Value))
  | object (host : HostObject Value)
  deriving Inhabited

namespace Value

/-- The name of a value's type, which for an object is its own. -/
def typeName : Value → String
  | null => "Null"
  | bool _ => "Bool"
  | int _ => "Int"
  | float _ => "Float"
  | string _ => "String"
  | list _ => "List"
  | map _ => "Map"
  | object host => host.typeName

/-- False for null, `false`, zero and NaN, the empty string, list and map, and
objects of length zero; true for all else. -/
def isTruthy : Value → Bool
  | null => false
  | bool b => b
  | int i => i != 0
  | float x => !x.isZero && !x.isNaN
  | string s => !s.isEmpty
  | list items => !items.isEmpty
  | map entries => !entries.isEmpty
  | object host => host.length != some 0

def isNull : Value → Bool
  | null => true
  | _ => false

def string? : Value → Option String
  | string s => some s
  | _ => none

def ofNat (n : Nat) : Value :=
  int (Int64.ofNat (min n (Numeral.signedLimit - 1)))

/-- The value at a position of a list or an object. A map takes the position
as a key. -/
def item? (value : Value) (position : Nat) : Option Value :=
  match value with
  | list items => items[position]?
  | object host => match host.length with
    | some length => if position < length then host.item? position else none
    | none => none
  | map entries => entries.lookup (toString position)
  | _ => none

/-- The value under a name: a key of a map, a member of an object, or a number
as a position of a list. -/
def member? (value : Value) (name : String) : Option Value :=
  match value with
  | map entries => entries.lookup name
  | object host => host.member? name
  | list items => do items[← Numeral.unsigned? name.toList]?
  | _ => none

/-- What an iteration over the value visits: the items of a list or an object,
or the entries of a map, each with its `key` and its `value`. -/
def elements? : Value → Option (List Value)
  | list items => some items
  | map entries => some (entries.map fun (key, value) =>
      map [("key", string key), ("value", value)])
  | object host => host.length.map fun length =>
      (List.range length).map fun position => (host.item? position).getD null
  | _ => none

end Value

end Stencil
