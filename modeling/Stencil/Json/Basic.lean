import Stencil.KeyMap
import Stencil.Number.Numeral
import Stencil.Number.Shortest

/-!
JSON values and their compact text. Integers and doubles are kept apart, as a
number written without point and exponent is an integer.
-/

namespace Stencil

/-- A JSON value. Members of objects are in key order. -/
inductive Json where
  | null
  | bool (b : Bool)
  | int (i : Int)
  | float (x : Binary64)
  | string (s : String)
  | array (items : List Json)
  | object (members : List (String × Json))
  deriving Inhabited

namespace Json

/-- Doubles have a point or an exponent, so that they stay apart from
integers; ten to the 16 and more, and less than ten to the -5, are scientific. -/
def doubleFormat : DoubleFormat := ⟨.even, some (-5, 16), true⟩

def escapeChar (c : Char) : List Char :=
  match c with
  | '"' => ['\\', '"']
  | '\\' => ['\\', '\\']
  | '\x08' => ['\\', 'b']
  | '\x0c' => ['\\', 'f']
  | '\n' => ['\\', 'n']
  | '\r' => ['\\', 'r']
  | '\t' => ['\\', 't']
  | c =>
      if c.toNat < 0x20 then
        ['\\', 'u', '0', '0', Nat.digitChar (c.toNat / 16), Nat.digitChar (c.toNat % 16)]
      else [c]

def stringText (s : String) : String :=
  String.ofList ('"' :: s.toList.flatMap escapeChar ++ ['"'])

/-- Text of a double; what is not finite has no JSON number. -/
def doubleText : Binary64 → String
  | .finite negative code => doubleFormat.finiteText negative code
  | _ => "null"

mutual

def text : Json → String
  | null => "null"
  | bool b => if b then "true" else "false"
  | int i => toString i
  | float x => doubleText x
  | string s => stringText s
  | array items => "[" ++ String.intercalate "," (texts items) ++ "]"
  | object members => "\x7b" ++ String.intercalate "," (memberTexts members) ++ "\x7d"

def texts : List Json → List String
  | [] => []
  | item :: items => item.text :: texts items

def memberTexts : List (String × Json) → List String
  | [] => []
  | (key, value) :: members => (stringText key ++ ":" ++ value.text) :: memberTexts members

end

def ofMembers (members : List (String × Json)) : Json :=
  object (KeyMap.ofList members)

def get? (key : String) : Json → Option Json
  | object members => members.lookup key
  | _ => none

def natural? : Json → Option Nat
  | int i => if 0 ≤ i ∧ i < Numeral.unsignedLimit then some i.toNat else none
  | _ => none

end Json

end Stencil
