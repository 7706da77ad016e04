/-!
Sets of code points given by inclusive ranges, and runs of characters that a
mapping moves by one distance. The Unicode tables are written in these forms.
-/

namespace Stencil.Text

abbrev CodeRange := Nat × Nat

def CodeRange.covers (ranges : List CodeRange) (c : Char) : Bool :=
  ranges.any fun range => range.1 ≤ c.toNat && c.toNat ≤ range.2

/-- Every `stride`-th character from `first` to `last` maps to the one
`distance` code points away. -/
structure CodeShift where
  first : Nat
  last : Nat
  stride : Nat
  distance : Int

namespace CodeShift

def moves (run : CodeShift) (c : Char) : Bool :=
  run.first ≤ c.toNat && c.toNat ≤ run.last && (c.toNat - run.first) % run.stride == 0

/-- The image of a character under the first run that moves it. -/
def image? (runs : List CodeShift) (c : Char) : Option Char :=
  (runs.find? (·.moves c)).map fun run => Char.ofNat (Int.ofNat c.toNat + run.distance).toNat

end CodeShift

end Stencil.Text
