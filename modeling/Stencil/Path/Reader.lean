import Stencil.Path.Basic
import Stencil.Text.Search

/-!
Reading a path from its text.
-/

namespace Stencil.Path

/-- Splits off leading steps to enclosing scopes. Two points alone are such a
step as well. -/
def climb : List Char → List Segment × List Char
  | '.' :: '.' :: '/' :: s =>
      let (steps, rest) := climb s
      (.parent :: steps, rest)
  | ['.', '.'] => ([.parent], [])
  | s => ([], s)

/-- Splits off the anchor. A point after the root sign belongs to it. -/
def anchor : List Char → List Segment × List Char
  | '~' :: '.' :: s => ([.root], s)
  | '~' :: s => ([.root], s)
  | s => climb s

def parse (text : String) : Except PathError Path := do
  if text.isEmpty then .error .empty
  else if text = "." ∨ text = "this" then pure ⟨[.self], text⟩
  else
    let (steps, rest) := anchor text.toList
    let segments ← if rest.isEmpty then pure []
      else (Text.splitOn '.' rest).mapM (Segment.read text)
    pure ⟨steps ++ segments, text⟩

end Stencil.Path
