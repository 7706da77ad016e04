import Stencil.Text.Search

/-!
Pieces: a template source cut at its tags, before any tag is looked into. The
sources of the pieces make up the template.
-/

namespace Stencil

/-- The marks around a tag, neither of them empty. -/
structure Delimiters where
  opening : List Char
  closing : List Char
  opening_ne : opening ≠ []
  closing_ne : closing ≠ []

/-- The delimiters of two texts, if neither is empty. -/
def Delimiters.ofTexts? (opening closing : List Char) : Option Delimiters :=
  if h : opening ≠ [] ∧ closing ≠ [] then some ⟨opening, closing, h.1, h.2⟩ else none

/-- A piece of a template source. -/
inductive Piece where
  | text (source : List Char)
  /-- An opening delimiter that is not closed before the next one, and the text
  up to there. -/
  | unclosed (braced : Bool) (rest : List Char)
  /-- The content of a tag; a braced one has a pair of braces inside its
  delimiters. -/
  | tag (braced : Bool) (content : List Char)

namespace Piece

def opener (marks : Delimiters) (braced : Bool) : List Char :=
  marks.opening ++ if braced then ['\x7b'] else []

def closer (marks : Delimiters) (braced : Bool) : List Char :=
  (if braced then ['\x7d'] else []) ++ marks.closing

def source (marks : Delimiters) : Piece → List Char
  | text source => source
  | unclosed braced rest => opener marks braced ++ rest
  | tag braced content => opener marks braced ++ content ++ closer marks braced

/-- Whether a brace follows the opening delimiter, and the text after both. -/
def brace : List Char → Bool × List Char
  | '\x7b' :: s => (true, s)
  | s => (false, s)

theorem length_brace_le (s : List Char) : (brace s).2.length ≤ s.length := by
  unfold brace
  split <;> simp

/-- The text before the next opening delimiter, and the text from there. -/
def upToOpening (marks : Delimiters) (s : List Char) : List Char × List Char :=
  match Text.cut? marks.opening s with
  | some (before, _) => (before, s.drop before.length)
  | none => (s, [])

/-- The piece that starts after an opening delimiter and its brace, and the text
after the piece. The tag is closed if its closer comes before the next opening
delimiter. -/
def afterOpener (marks : Delimiters) (braced : Bool) (inner : List Char) :
    Piece × List Char :=
  let (rest, resume) := upToOpening marks inner
  match Text.cut? (closer marks braced) inner with
  | some (content, after) =>
      if content.length ≤ rest.length then (tag braced content, after)
      else (unclosed braced rest, resume)
  | none => (unclosed braced rest, resume)

theorem length_upToOpening_le (marks : Delimiters) (s : List Char) :
    (upToOpening marks s).2.length ≤ s.length := by
  unfold upToOpening
  split <;> simp

theorem length_afterOpener_le (marks : Delimiters) (braced : Bool) (inner : List Char) :
    (afterOpener marks braced inner).2.length ≤ inner.length := by
  have resume := length_upToOpening_le marks inner
  simp only [afterOpener]
  split
  · rename_i h
    have ne : closer marks braced ≠ [] := by simp [closer, marks.closing_ne]
    split
    · exact Nat.le_of_lt (Text.length_lt_of_cut? ne h)
    · exact resume
  · exact resume

def ofSource (marks : Delimiters) (s : List Char) : List Piece :=
  if s.isEmpty then []
  else match h : Text.cut? marks.opening s with
    | none => [text s]
    | some (before, rest) =>
        have := Text.length_lt_of_cut? marks.opening_ne h
        let inner := brace rest
        let piece := afterOpener marks inner.1 inner.2
        (if before.isEmpty then [] else [text before]) ++ piece.1 :: ofSource marks piece.2
termination_by s.length
decreasing_by
  exact Nat.lt_of_le_of_lt
    (Nat.le_trans (length_afterOpener_le marks _ _) (length_brace_le rest)) this

end Piece

end Stencil
