import Stencil.Text.Encoding
import Stencil.Json.Fields
import Stencil.Render.Error
import Stencil.Token.Piece

/-!
Render settings, and their form as JSON.
-/

namespace Stencil

/-- What happens to a partial reference that would nest too deeply. -/
inductive OverflowPolicy where
  | fail
  | skip
  deriving DecidableEq

/-- The configuration of a template. -/
structure Settings where
  encoding : Encoding
  /-- What is written for null and for data that is absent. -/
  nullText : String
  /-- The most bytes that are written; zero means no limit. -/
  maxSize : Nat
  /-- The time that a render may take, in milliseconds. -/
  timeout : Option Nat
  partialDepth : Nat
  overflow : OverflowPolicy
  disablesEscaping : Bool
  /-- Parsing infers the model of the data. -/
  infersModel : Bool
  /-- Rendering records what it renders. -/
  profiles : Bool
  opening : String
  closing : String
  deriving DecidableEq

namespace Settings

def default : Settings where
  encoding := .utf8
  nullText := ""
  maxSize := 0
  timeout := none
  partialDepth := 255
  overflow := .fail
  disablesEscaping := false
  infersModel := false
  profiles := false
  opening := "\x7b\x7b"
  closing := "\x7d\x7d"

def delimiters? (settings : Settings) : Option Delimiters :=
  Delimiters.ofTexts? settings.opening.toList settings.closing.toList

def timeLimit (settings : Settings) : Option Duration :=
  settings.timeout.map fun milliseconds => ⟨milliseconds * 1000000⟩

/-- The settings with a time limit, in whole milliseconds as far as these can be
counted with 64 bits. -/
def withTimeLimit (settings : Settings) (limit : Duration) : Settings :=
  { settings with timeout := some (min (limit.nanoseconds / 1000000) (Numeral.unsignedLimit - 1)) }

end Settings

namespace Encoding

def name : Encoding → String
  | utf8 => "utf8"
  | utf16le => "utf16-le"
  | utf16be => "utf16-be"

def ofName? (name : String) : Option Encoding :=
  [utf8, utf16le, utf16be].find? (·.name == name)

end Encoding

namespace OverflowPolicy

def name : OverflowPolicy → String
  | fail => "fail-with-error"
  | skip => "fail-silent"

def ofName? (name : String) : Option OverflowPolicy :=
  [fail, skip].find? (·.name == name)

end OverflowPolicy

namespace Settings

def names : List String := ["encoding", "null_value", "max_size", "timeout_ms",
  "partial_stack_size", "stack_overflow_behavior", "disable_content_escaping", "infer_model",
  "profile", "open_delimiter", "close_delimiter"]

private def read? {α : Type} (fields : List (String × Json)) (name : String)
    (read? : Json → Option α) (otherwise : α) : Option α :=
  match fields.lookup name with
  | some json => read? json
  | none => some otherwise

/-- The settings that JSON describes. Names that are no setting are ignored. -/
def ofJson? (json : Json) : Option Settings := do
  let fields ← json.fields? names
  pure {
    encoding := ← read? fields "encoding" (fun json => do Encoding.ofName? (← json.choice?))
      default.encoding
    nullText := ← read? fields "null_value" Json.string? default.nullText
    maxSize := ← read? fields "max_size" Json.natural? default.maxSize
    timeout := ← read? fields "timeout_ms" (Json.optional? Json.natural?) default.timeout
    partialDepth := ← read? fields "partial_stack_size" Json.natural? default.partialDepth
    overflow := ← read? fields "stack_overflow_behavior"
      (fun json => do OverflowPolicy.ofName? (← json.choice?)) default.overflow
    disablesEscaping := ← read? fields "disable_content_escaping" Json.bool?
      default.disablesEscaping
    infersModel := ← read? fields "infer_model" Json.bool? default.infersModel
    profiles := ← read? fields "profile" Json.bool? default.profiles
    opening := ← read? fields "open_delimiter" Json.string? default.opening
    closing := ← read? fields "close_delimiter" Json.string? default.closing }

/-- The JSON of settings. A time limit that is not set is left out. -/
def toJson (settings : Settings) : Json :=
  let timeout := match settings.timeout with
    | some milliseconds => [("timeout_ms", Json.int milliseconds)]
    | none => []
  .ofMembers ([("encoding", .string settings.encoding.name),
    ("null_value", .string settings.nullText),
    ("max_size", .int settings.maxSize),
    ("partial_stack_size", .int settings.partialDepth),
    ("stack_overflow_behavior", .string settings.overflow.name),
    ("disable_content_escaping", .bool settings.disablesEscaping),
    ("infer_model", .bool settings.infersModel),
    ("profile", .bool settings.profiles),
    ("open_delimiter", .string settings.opening),
    ("close_delimiter", .string settings.closing)] ++ timeout)

end Settings

end Stencil
