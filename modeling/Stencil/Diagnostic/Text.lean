import Stencil.Diagnostic.Snippet

/-!
The text of a diagnostic: a snippet of the source it points into, or plain
lines, with the remaining details and the hints as bullets.
-/

namespace Stencil

def DetailKind.bullet : DetailKind → String
  | error => "✖"
  | info => "ℹ"
  | note => "•"

namespace Diagnostic

def bulletLine (bullet text : String) : String :=
  bullet ++ " " ++ text ++ "\n"

def detailLine (detail : Detail) : String :=
  bulletLine detail.kind.bullet detail.text

def hintLines (diagnostic : Diagnostic) : String :=
  String.join (diagnostic.hints.map (bulletLine "?"))

def heading (diagnostic : Diagnostic) : String :=
  match diagnostic.code with
  | some code => "[" ++ code ++ "] " ++ diagnostic.title
  | none => diagnostic.title

/-- The span that a snippet is about: the location, or else that of the first
detail that has one. -/
def place? (diagnostic : Diagnostic) : Option Span :=
  diagnostic.location.or (diagnostic.details.findSome? Detail.span)

/-- The labels of the details that have a place in the content. -/
def detailLabels (diagnostic : Diagnostic) (content : String) : List Label :=
  diagnostic.details.filterMap fun detail => do Label.ofSpan? content (← detail.span) detail.text

/-- The snippet of a source, if the diagnostic is about a place in it. -/
def snippet? (diagnostic : Diagnostic) (file : SourceFile) : Option Snippet := do
  let message := diagnostic.problem.getD diagnostic.title
  let main ← Label.ofSpan? file.content (← diagnostic.place?) message
  pure ⟨diagnostic.severity, diagnostic.heading, file, main,
    diagnostic.detailLabels file.content⟩

/-- The first line of the plain text: the code, the title and the location. -/
def plainHeading (diagnostic : Diagnostic) : String :=
  let code := match diagnostic.code with
    | some code => " [" ++ code ++ "]"
    | none => ""
  let location := match diagnostic.location with
    | some span => " (at " ++ toString span.line ++ ":" ++ toString span.column ++ ")"
    | none => ""
  diagnostic.severity.label ++ code ++ ": " ++ diagnostic.title ++ location ++ "\n"

def plainText (diagnostic : Diagnostic) : String :=
  let problem := match diagnostic.problem with
    | some problem => problem ++ "\n"
    | none => ""
  diagnostic.plainHeading ++ problem ++ String.join (diagnostic.details.map detailLine) ++
    diagnostic.hintLines

/-- What follows a snippet: the details without a place, and the hints. -/
def remainder (diagnostic : Diagnostic) : String :=
  String.join ((diagnostic.details.filter (·.span.isNone)).map detailLine) ++
    diagnostic.hintLines

/-- The text with the snippet of a source where there is one. -/
def text (diagnostic : Diagnostic) (source : Option SourceFile) (drawing : Drawing := .framed) :
    String :=
  match source.bind diagnostic.snippet? with
  | some snippet => String.join ((drawing.lines snippet).map (· ++ "\n")) ++ diagnostic.remainder
  | none => diagnostic.plainText

end Diagnostic

end Stencil
