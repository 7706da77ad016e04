/-!
Escaping for HTML: the five characters that could be read as markup become
entities.
-/

namespace Stencil.Html

def isSpecial (c : Char) : Bool :=
  c == '&' || c == '<' || c == '>' || c == '"' || c == '\''

def escapeChar (c : Char) : List Char :=
  match c with
  | '&' => ['&', 'a', 'm', 'p', ';']
  | '<' => ['&', 'l', 't', ';']
  | '>' => ['&', 'g', 't', ';']
  | '"' => ['&', 'q', 'u', 'o', 't', ';']
  | '\'' => ['&', '#', '3', '9', ';']
  | c => [c]

/-- Text without characters of markup. Text that has none stays as it is, and so
does what stands before the first of them. -/
def escape (text : String) : String :=
  match text.toList.findIdx? isSpecial with
  | none => text
  | some first =>
      String.ofList (text.toList.take first ++ (text.toList.drop first).flatMap escapeChar)

end Stencil.Html
