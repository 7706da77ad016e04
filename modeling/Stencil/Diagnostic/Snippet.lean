import Stencil.Diagnostic.Basic
import Stencil.Text.Blank

/-!
Snippets: the lines of a source that a diagnostic points at, in a frame, with
labels under them.
-/

namespace Stencil

structure SourceFile where
  name : String
  content : String

/-- A line of a source: where it starts, in characters, and its characters with
the line break. -/
structure SourceLine where
  start : Nat
  text : List Char

namespace SourceLine

def isBreak (c : Char) : Bool :=
  let n := c.toNat
  (0x0a ≤ n && n ≤ 0x0d) || n == 0x85 || n == 0x2028 || n == 0x2029

/-- The first line of a text and the rest. A carriage return and a line feed are
one break. -/
def splitFirst : List Char → List Char × List Char
  | [] => ([], [])
  | '\r' :: '\n' :: s => (['\r', '\n'], s)
  | c :: s =>
      if isBreak c then ([c], s)
      else
        let (line, rest) := splitFirst s
        (c :: line, rest)

theorem length_splitFirst_le (s : List Char) : (splitFirst s).2.length ≤ s.length := by
  fun_induction splitFirst s with
  | case1 => exact Nat.le_refl _
  | case2 s => exact Nat.le_add_right _ 2
  | case3 c s => exact Nat.le_succ _
  | case4 c s _ _ line rest split ih =>
      rw [split] at ih
      exact Nat.le_succ_of_le ih

theorem length_splitFirst_lt (c : Char) (s : List Char) :
    (splitFirst (c :: s)).2.length < (c :: s).length := by
  unfold splitFirst
  split
  · contradiction
  · rename_i h
    obtain ⟨rfl, rfl⟩ := List.cons.inj h
    exact Nat.lt_of_lt_of_le (Nat.lt_succ_self _) (Nat.le_succ _)
  · rename_i h
    obtain ⟨rfl, rfl⟩ := List.cons.inj h
    split
    · exact Nat.lt_succ_self _
    · exact Nat.lt_succ_of_le (length_splitFirst_le _)

/-- The lines of a text whose first character has an offset. A text that ends
with a break has no line after it. -/
def linesFrom (start : Nat) : List Char → List SourceLine
  | [] => []
  | c :: s =>
      let split := splitFirst (c :: s)
      ⟨start, split.1⟩ :: linesFrom (start + split.1.length) split.2
termination_by s => s.length
decreasing_by exact length_splitFirst_lt c s

/-- The lines of a content. An empty one has none. -/
def ofContent (content : String) : List SourceLine :=
  linesFrom 0 content.toList

/-- How many of the lines start at or before an offset, at least one. -/
def numberAt (lines : List SourceLine) (offset : Nat) : Nat :=
  max 1 (lines.takeWhile (·.start ≤ offset)).length

def lineAt (lines : List SourceLine) (offset : Nat) : SourceLine :=
  lines.getD (numberAt lines offset - 1) ⟨0, []⟩

end SourceLine

/-- A message at a range of characters. -/
structure Label where
  start : Nat
  stop : Nat
  message : String

namespace Label

/-- The label of a span: its range in characters, if both its ends lie between
characters of the content. A span that ends before it starts is empty. -/
def ofSpan? (content : String) (span : Span) (message : String) : Option Label := do
  let charsBefore (offset : Nat) : Option Nat :=
    (Text.splitAt? offset content.toList).map (·.1.length)
  pure ⟨← charsBefore span.start, ← charsBefore (max span.stop span.start), message⟩

end Label

/-- A snippet to draw: a heading and labels in a source, of which the first
gives the place in the frame. -/
structure Snippet where
  severity : Severity
  heading : String
  file : SourceFile
  main : Label
  others : List Label

def Severity.label : Severity → String
  | error => "Error"
  | warning => "Warning"

namespace Snippet

def labels (snippet : Snippet) : List Label :=
  snippet.main :: snippet.others

/-- The columns that a character of a line takes: a tab goes on to the next
multiple of four. -/
def width (c : Char) (column : Nat) : Nat :=
  if c = '\t' then 4 - column % 4 else 1

/-- The characters of a line with tabs spread out. -/
def lineText (line : List Char) : List Char :=
  ((Text.trimEnd line).zipIdx.map fun (c, column) =>
    if Text.isBlank c then List.replicate (width c column) ' ' else [c]).flatten

/-- Marks below the first `length` characters of a line: `mark` gives for each
of them the sign at its first column and the sign at its others. -/
def marks (line : List Char) (length : Nat) (mark : Nat → Char × Char) : List Char :=
  let shown := Text.trimEnd line
  ((List.range length).map fun column =>
    let (first, more) := mark column
    let columns := (shown[column]?.map (width · column)).getD 1
    first :: List.replicate (columns - 1) more).flatten

/-- The lines of a frame below its top, with a margin for numbers of `digits`
digits: the line of a label, the underline, and the arrow to the message. An
empty label is not underlined; the arrow alone points at it. -/
def drawLabel (lines : List SourceLine) (digits : Nat) (label : Label) : List String :=
  let number := SourceLine.numberAt lines label.start
  let line := SourceLine.lineAt lines label.start
  let start := label.start - line.start
  let stop := min (label.stop - line.start) line.text.length
  let middle := (start + stop) / 2
  let numberText := (toString number).toList
  let margin := String.ofList (List.replicate (digits + 2) ' ') ++ "│ "
  let numbered := String.ofList (' ' :: List.replicate (digits - numberText.length) ' ' ++
    numberText) ++ " │ "
  let underline := marks line.text (stop + 2) fun column =>
    let underlined := start ≤ column ∧ column < stop
    if column = middle then if underlined then ('┬', '─') else ('│', ' ')
    else if underlined then ('─', '─')
    else (' ', ' ')
  let arrow := marks line.text (stop + 2) fun column =>
    if column = middle then ('╰', '─')
    else if middle < column then ('─', '─')
    else (' ', ' ')
  [numbered ++ String.ofList (lineText line.text), margin ++ String.ofList underline,
    margin ++ String.ofList arrow ++ " " ++ label.message]

def headline (snippet : Snippet) : String :=
  snippet.severity.label ++ ": " ++ snippet.heading

/-- The top of the frame, which tells the place of the main label. -/
def top (snippet : Snippet) (lines : List SourceLine) (digits : Nat) : String :=
  let number := toString (SourceLine.numberAt lines snippet.main.start)
  let column := toString (snippet.main.start -
    (SourceLine.lineAt lines snippet.main.start).start + 1)
  String.ofList (List.replicate (digits + 2) ' ') ++ "╭─[" ++ snippet.file.name ++ ":" ++
    number ++ ":" ++ column ++ "]"

/-- The digits of the number of the last line that the labels reach: that of the
last character of all of them, or of their start if they are all empty. -/
def numberWidth (snippet : Snippet) (lines : List SourceLine) : Nat :=
  let start := (snippet.others.map Label.start).foldl min snippet.main.start
  let stop := (snippet.labels.map Label.stop).foldl max 0
  (toString (SourceLine.numberAt lines (max start (stop - 1)))).length

/-- The lines of the frame. There is none around a content without lines. -/
def frame (snippet : Snippet) : List String :=
  match SourceLine.ofContent snippet.file.content with
  | [] => []
  | lines =>
      let digits := snippet.numberWidth lines
      let margin := String.ofList (List.replicate (digits + 2) ' ') ++ "│"
      let foot := String.ofList (List.replicate (digits + 2) '─') ++ "╯"
      snippet.top lines digits :: margin ::
        (snippet.labels.map (drawLabel lines digits)).flatten ++ [foot]

def draw (snippet : Snippet) : List String :=
  snippet.headline :: snippet.frame

end Snippet

/-- What draws snippets, line by line. How it frames the source and where it puts the
labels is its own affair, but the heading is among its lines. -/
structure Drawing where
  lines : Snippet → List String
  heads : ∀ snippet, snippet.headline ∈ lines snippet

/-- The heading above a frame. -/
def Drawing.framed : Drawing where
  lines := Snippet.draw
  heads _ := List.mem_cons_self

end Stencil
