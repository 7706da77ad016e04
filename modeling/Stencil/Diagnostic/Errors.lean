import Stencil.Diagnostic.Catalog
import Stencil.Diagnostic.Text
import Stencil.Render.Error

/-!
The diagnostics of parse errors and of render errors.
-/

namespace Stencil

namespace ParseError

def diagnostic (error : ParseError) : Diagnostic :=
  { Diagnostic.ofCode error.kind.code with
    problem := some error.message
    location := some error.span }

/-- The reports of parse errors with snippets of their source, one after
another. -/
def report (file : SourceFile) (errors : List ParseError) (drawing : Drawing := .framed) :
    String :=
  String.intercalate "\n" (errors.map fun error => error.diagnostic.text (some file) drawing)

end ParseError

/-- The reports of a render error: one for each parse error that caused it, or
one for itself. -/
def RenderError.diagnostics : RenderError → List Diagnostic
  | invalid errors => errors.map ParseError.diagnostic
  | error => [{ Diagnostic.ofCode error.code with problem := some error.message }]

end Stencil
