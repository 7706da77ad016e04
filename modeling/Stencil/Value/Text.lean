import Stencil.Json.Basic
import Stencil.Value.Basic

/-!
The text of a value, and its form as JSON.
-/

namespace Stencil

/-- Numbers are written without exponent, and whole ones without a point. -/
def Binary64.displayFormat : DoubleFormat := ⟨.up, none, false⟩

def Binary64.text : Binary64 → String
  | nan => "NaN"
  | infinite negative => if negative then "-inf" else "inf"
  | finite negative code => displayFormat.finiteText negative code

namespace Value

mutual

/-- The JSON of a value. Numbers that are not finite become null and objects
their text. -/
def toJson : Value → Json
  | null => .null
  | bool b => .bool b
  | int i => .int i.toInt
  | float x => match x with
    | .finite .. => .float x
    | _ => .null
  | string s => .string s
  | list items => .array (itemsToJson items)
  | map entries => .object (entriesToJson entries)
  | object host => .string host.text

def itemsToJson : List Value → List Json
  | [] => []
  | item :: items => item.toJson :: itemsToJson items

def entriesToJson : List (String × Value) → List (String × Json)
  | [] => []
  | (key, value) :: entries => (key, value.toJson) :: entriesToJson entries

end

mutual

/-- The value of JSON. Integers above the signed range become doubles. -/
def ofJson : Json → Value
  | .null => null
  | .bool b => bool b
  | .int i => match Numeral.inRange? i with
    | some i => int i
    | none => float (.ofInt i)
  | .float x => float x
  | .string s => string s
  | .array items => list (itemsOfJson items)
  | .object members => map (entriesOfJson members)

def itemsOfJson : List Json → List Value
  | [] => []
  | item :: items => ofJson item :: itemsOfJson items

def entriesOfJson : List (String × Json) → List (String × Value)
  | [] => []
  | (key, value) :: members => (key, ofJson value) :: entriesOfJson members

end

mutual

/-- The text that a value is written as. Lists are joined with commas and maps
are compact JSON. -/
def text (nullText : String) : Value → String
  | null => nullText
  | bool b => if b then "true" else "false"
  | int i => toString i.toInt
  | float x => x.text
  | string s => s
  | list items => String.intercalate ", " (texts nullText items)
  | map entries => (toJson (map entries)).text
  | object host => host.text

def texts (nullText : String) : List Value → List String
  | [] => []
  | item :: items => item.text nullText :: texts nullText items

end

end Value

end Stencil
