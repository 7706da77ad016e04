import Stencil.Value.Basic

/-!
Equality of values as templates see it: an integer equals the double that it
rounds to, and an object equals only itself.
-/

namespace Stencil.Value

mutual

/-- Values are equal if they are of one shape and equal in every part. -/
def equals : Value → Value → Bool
  | null, null => true
  | bool a, bool b => a == b
  | int a, int b => a == b
  | float a, float b => a.equals b
  | int a, float b | float b, int a => (Binary64.ofInt a.toInt).equals b
  | string a, string b => a == b
  | list a, list b => equalItems a b
  | map a, map b => equalEntries a b
  | object a, object b => a.identity == b.identity
  | _, _ => false

def equalItems : List Value → List Value → Bool
  | [], [] => true
  | a :: as, b :: bs => a.equals b && equalItems as bs
  | _, _ => false

def equalEntries : List (String × Value) → List (String × Value) → Bool
  | [], [] => true
  | (key, a) :: as, (key', b) :: bs => key == key' && a.equals b && equalEntries as bs
  | _, _ => false

end

end Stencil.Value
