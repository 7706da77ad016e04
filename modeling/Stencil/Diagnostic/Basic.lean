import Stencil.Span

/-!
Diagnostics: reports of one problem for a reader, with a title, a code from the
catalog, details that may point into a source, and hints.
-/

namespace Stencil

/-- How grave a problem is. -/
inductive Severity where
  | error
  | warning
  deriving DecidableEq

/-- The role of a detail, which its bullet shows. -/
inductive DetailKind where
  | error
  | info
  | note
  deriving DecidableEq

/-- A detail of a problem, with its place if it has one. -/
structure Detail where
  kind : DetailKind
  text : String
  span : Option Span
  deriving DecidableEq

/-- A report of one problem. -/
structure Diagnostic where
  severity : Severity
  title : String
  code : Option String
  problem : Option String
  details : List Detail
  hints : List String
  location : Option Span
  deriving DecidableEq

namespace Diagnostic

def new (severity : Severity) (title : String) : Diagnostic :=
  ⟨severity, title, none, none, [], [], none⟩

def addDetail (diagnostic : Diagnostic) (kind : DetailKind) (text : String)
    (span : Option Span) : Diagnostic :=
  { diagnostic with details := diagnostic.details ++ [⟨kind, text, span⟩] }

def addHint (diagnostic : Diagnostic) (hint : String) : Diagnostic :=
  { diagnostic with hints := diagnostic.hints ++ [hint] }

end Diagnostic

end Stencil
