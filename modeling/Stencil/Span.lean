import Stencil.Text.Utf8

/-!
Places in a template. A span is a range of byte offsets with the line and
column of its start; lines and columns count from one, and columns count
characters.
-/

namespace Stencil

/-- A byte range of a template and the position of its start. -/
structure Span where
  start : Nat
  stop : Nat
  line : Nat
  column : Nat
  deriving DecidableEq

/-- The smallest span over both; the position is that of the one that starts
first. -/
def Span.merge (a b : Span) : Span :=
  let first := if a.start ≤ b.start then a else b
  ⟨min a.start b.start, max a.stop b.stop, first.line, first.column⟩

/-- The byte offsets at which the lines of a source start. -/
structure LineIndex where
  source : List Char
  starts : List Nat

namespace LineIndex

/-- Offsets after each line break, the source starting at `offset`. -/
def startsAfter (offset : Nat) : List Char → List Nat
  | [] => []
  | c :: s =>
      let next := offset + c.utf8Size
      if c = '\n' then next :: startsAfter next s else startsAfter next s

def ofSource (source : List Char) : LineIndex :=
  ⟨source, 0 :: startsAfter 0 source⟩

def startsUpTo (index : LineIndex) (offset : Nat) : List Nat :=
  index.starts.takeWhile (· ≤ offset)

/-- The span from `start` to `stop`. Where `start` does not lie between two
characters of the source, the column counts bytes. -/
def span (index : LineIndex) (start stop : Nat) : Span :=
  let reached := index.startsUpTo start
  let lineStart := reached.getLastD 0
  let before := match Text.slice? lineStart start index.source with
    | some text => text.length
    | none => start - lineStart
  ⟨start, stop, reached.length, before + 1⟩

end LineIndex

end Stencil
