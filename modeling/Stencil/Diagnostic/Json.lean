import Stencil.Diagnostic.Basic
import Stencil.Json.Fields

/-!
Diagnostics as JSON. What is empty or absent is left out.
-/

namespace Stencil

def Severity.name : Severity → String
  | error => "error"
  | warning => "warning"

def DetailKind.name : DetailKind → String
  | error => "error"
  | info => "info"
  | note => "note"

namespace Span

def toJson (span : Span) : Json :=
  .ofMembers [("start", .int span.start), ("end", .int span.stop), ("line", .int span.line),
    ("column", .int span.column)]

def ofJson? (json : Json) : Option Span := do
  let fields ← json.fields? ["start", "end", "line", "column"]
  pure ⟨← (← fields.lookup "start").natural?, ← (← fields.lookup "end").natural?,
    ← (← fields.lookup "line").natural?, ← (← fields.lookup "column").natural?⟩

end Span

namespace Detail

def toJson (detail : Detail) : Json :=
  .ofMembers ([("kind", .string detail.kind.name), ("text", .string detail.text)] ++
    Json.memberIf "span" (detail.span.map Span.toJson))

def ofJson? (json : Json) : Option Detail := do
  let fields ← json.fields? ["kind", "text", "span"]
  let name ← (← fields.lookup "kind").choice?
  let kind ← [DetailKind.error, .info, .note].find? (·.name == name)
  pure ⟨kind, ← (← fields.lookup "text").string?, ← Json.optionalField? fields "span" Span.ofJson?⟩

end Detail

namespace Diagnostic

def toJson (diagnostic : Diagnostic) : Json :=
  .ofMembers (Json.memberIf "code" (diagnostic.code.map .string) ++
    [("severity", .string diagnostic.severity.name), ("title", .string diagnostic.title)] ++
    Json.memberIf "problem" (diagnostic.problem.map .string) ++
    Json.membersIf "details" (diagnostic.details.map Detail.toJson) ++
    Json.membersIf "hints" (diagnostic.hints.map .string) ++
    Json.memberIf "location" (diagnostic.location.map Span.toJson))

def ofJson? (json : Json) : Option Diagnostic := do
  let fields ← json.fields?
    ["code", "severity", "title", "problem", "details", "hints", "location"]
  let name ← (← fields.lookup "severity").choice?
  let severity ← [Severity.error, .warning].find? (·.name == name)
  pure {
    severity
    title := ← (← fields.lookup "title").string?
    code := ← Json.optionalField? fields "code" Json.string?
    problem := ← Json.optionalField? fields "problem" Json.string?
    details := ← Json.listField? fields "details" Detail.ofJson?
    hints := ← Json.listField? fields "hints" Json.string?
    location := ← Json.optionalField? fields "location" Span.ofJson? }

end Diagnostic

end Stencil
