import Stencil.Text.CaseTable

/-!
Capital and small letters of text, by the full case mappings of Unicode. The
one mapping that depends on its surroundings is that of the capital sigma.
-/

namespace Stencil.Text

/-- The expansion of a character, its image under a run, or itself. -/
private def mapCase (expansions : List (Nat × List Nat)) (runs : List CodeShift) (c : Char) :
    List Char :=
  match expansions.lookup c.toNat with
  | some image => image.map Char.ofNat
  | none => [(CodeShift.image? runs c).getD c]

def upperOf (c : Char) : List Char :=
  if c.toNat < 0x80 then [c.toUpper]
  else mapCase CaseTable.toUpperExpansions CaseTable.toUpper c

def lowerOf (c : Char) : List Char :=
  if c.toNat < 0x80 then [c.toLower]
  else mapCase CaseTable.toLowerExpansions CaseTable.toLower c

def isCased (c : Char) : Bool :=
  if c.toNat < 0x80 then c.isAlpha else CodeRange.covers CaseTable.cased c

/-- Characters inside words that casing looks through, such as apostrophes
and combining marks. -/
def isCaseIgnorable (c : Char) : Bool :=
  if c.toNat < 0x80 then c == '\'' || c == '.' || c == ':' || c == '^' || c == '\x60'
  else CodeRange.covers CaseTable.ignorable c

/-- The first character that is not ignorable has case. -/
def meetsCased (s : List Char) : Bool :=
  ((s.dropWhile isCaseIgnorable).head?).any isCased

/-- Small form of text whose reversed beginning is `before`: a capital sigma
at the end of a word becomes the final one. -/
def lowerFrom (before : List Char) : List Char → List Char
  | [] => []
  | c :: s =>
      let small :=
        if c = 'Σ' then [if meetsCased before && !meetsCased s then 'ς' else 'σ']
        else lowerOf c
      small ++ lowerFrom (c :: before) s

def upper (s : String) : String :=
  String.ofList (s.toList.flatMap upperOf)

def lower (s : String) : String :=
  String.ofList (lowerFrom [] s.toList)

end Stencil.Text
