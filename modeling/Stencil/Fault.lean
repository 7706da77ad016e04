import Stencil.Path.Basic
import Stencil.Span

/-!
What can be wrong with a template. Every fault has a kind, a stable code and
a wording; a parse error is a fault at a place.
-/

namespace Stencil

/-- The category of a parse error. -/
inductive FaultKind where
  | unexpectedToken
  | unclosedBlock
  | unclosedTag
  | invalidPath
  | malformedFormatter
  | emptyTag
  | invalidDelimiter
  deriving DecidableEq

namespace FaultKind

def code : FaultKind → String
  | unexpectedToken => "T-1-1"
  | unclosedBlock => "T-1-2"
  | unclosedTag => "T-1-3"
  | invalidPath => "T-1-4"
  | malformedFormatter => "T-1-5"
  | emptyTag => "T-1-6"
  | invalidDelimiter => "T-1-7"

def title : FaultKind → String
  | unexpectedToken => "Unexpected token"
  | unclosedBlock => "Unclosed block"
  | unclosedTag => "Unclosed tag"
  | invalidPath => "Invalid path"
  | malformedFormatter => "Malformed formatter call"
  | emptyTag => "Empty tag"
  | invalidDelimiter => "Invalid delimiter"

end FaultKind

/-- Something wrong with a template. -/
inductive Fault where
  /-- A closer while no block is open. -/
  | closesNothing (name : String)
  /-- A closer that does not name the innermost block, opened on `line`. -/
  | closesOther (name opened : String) (line : Nat)
  | strayElse
  | secondElse
  /-- A custom token that no provider takes. -/
  | unclaimed (provider value : String)
  | unclosedBlock (name : String)
  /-- A tag without its closing delimiter. -/
  | unclosedTag (opening closing : String)
  | path (cause : PathError)
  | namelessDeclaration
  | namelessReference
  /-- Text after the end of an expression, which has formatter calls or not. -/
  | trailing (afterCall : Bool) (rest source : String)
  | missingFormatterName (source : String)
  | unclosedArguments (formatter : String)
  | missingComma (formatter : String)
  | missingArgument (source : String)
  | unterminatedString (source : String)
  | invalidNumber (text : String)
  | emptyTag
  | emptyDelimiter (opening closing : String)
  /-- What a provider reports in its own words. -/
  | reported (kind : FaultKind) (message : String)
  deriving DecidableEq

namespace Fault

def kind : Fault → FaultKind
  | closesNothing _ | closesOther .. | strayElse | secondElse | unclaimed .. => .unexpectedToken
  | unclosedBlock _ => .unclosedBlock
  | unclosedTag .. => .unclosedTag
  | path _ | namelessDeclaration | namelessReference | trailing false .. => .invalidPath
  | trailing true .. | missingFormatterName _ | unclosedArguments _ | missingComma _
  | missingArgument _ | unterminatedString _ | invalidNumber _ => .malformedFormatter
  | emptyTag => .emptyTag
  | emptyDelimiter .. => .invalidDelimiter
  | reported kind _ => kind

def message : Fault → String
  | closesNothing name => s!"`/{name}` does not close any open block"
  | closesOther name opened line =>
      s!"`/{name}` does not match the open `{opened}` from line {line}"
  | strayElse => "`else` outside of a section"
  | secondElse => "a section can only have one `else`"
  | unclaimed provider value => s!"no provider named `{provider}` accepts `{value}`"
  | unclosedBlock name => s!"`{name}` is never closed"
  | unclosedTag opening closing => s!"`{opening}` is never closed with `{closing}`"
  | path cause => cause.message
  | namelessDeclaration => "`declare` needs a partial name"
  | namelessReference => "`>` needs a partial name"
  | trailing _ rest source => s!"unexpected `{rest}` in `{source}`"
  | missingFormatterName source => s!"expected a formatter name after `|` in `{source}`"
  | unclosedArguments formatter => s!"argument list of `{formatter}` is never closed"
  | missingComma formatter => s!"expected `,` or `)` in arguments of `{formatter}`"
  | missingArgument source => s!"expected an argument in `{source}`"
  | unterminatedString source => s!"unterminated string literal in `{source}`"
  | invalidNumber text => s!"invalid number literal `{text}`"
  | emptyTag => "tag contains no expression"
  | emptyDelimiter opening closing =>
      s!"delimiters must not be empty (open `{opening}`, close `{closing}`)"
  | reported _ message => message

end Fault

/-- A fault at a place of a template. -/
structure ParseError where
  fault : Fault
  span : Span
  deriving DecidableEq

namespace ParseError

def kind (error : ParseError) : FaultKind :=
  error.fault.kind

def message (error : ParseError) : String :=
  error.fault.message

def text (error : ParseError) : String :=
  let title := error.kind.title
  let line := error.span.line
  let column := error.span.column
  let message := error.message
  s!"{title} at line {line}, column {column}: {message}"

/-- The text of several errors: their number, then one per line. -/
def listText (errors : List ParseError) : String :=
  let count := errors.length
  s!"template has {count} parse error(s)" ++
    String.join (errors.map fun error => "\n  " ++ error.text)

end ParseError

end Stencil
