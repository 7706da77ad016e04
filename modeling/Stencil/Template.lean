import Stencil.Document.Parser
import Stencil.Render.Items
import Stencil.Render.Run

/-!
Templates: a parsed source with its options, and the ways to render it. A
template with parse errors is never rendered.
-/

namespace Stencil

structure Template where
  source : String
  document : Document
  options : Options

/-- What a finished render reports about its output. -/
structure Output where
  bytesWritten : Nat
  /-- The size limit stopped the render. -/
  limitReached : Bool
  profile : Option (List Sample)

/-- What came of a render: its result, the device with what reached it, the
signal, and the paths that found nothing. -/
structure Rendering where
  result : Except RenderError Output
  device : Device
  signal : Signal
  unresolved : List (String × Expectation)

namespace Template

def parse (options : Options) (source : String) : Template :=
  ⟨source, .parse options.settings options.providers source, options⟩

/-- The template of a file's bytes, which must be UTF-8. -/
def ofBytes (options : Options) (bytes : List UInt8) : Except RenderError Template :=
  match Text.ofOctets? bytes with
  | some source => .ok (parse options (String.ofList source))
  | none => .error (.device (.unavailable "stream did not contain valid UTF-8"))

def isValid (template : Template) : Bool :=
  template.document.isValid

/-- A render that was refused or stopped before it wrote anything. -/
private def refuse (error : RenderError) (device : Device) (signal : Signal) : Rendering :=
  ⟨.error error, device, signal, []⟩

def script (template : Template) (data : Value) : Script :=
  .ofItems template.options.environment template.document.items (.root data)

/-- What a run reports after its script came to a result. The size limit ends a
run like the end of the script does. -/
def finish (result : Except RenderError Unit) (run : Run) : Except RenderError Output := do
  match result with
  | .ok () | .error (.outputLimit _) => run.sink.flush
  | .error error => .error error
  pure ⟨run.sink.written, run.sink.limitReached, run.session.profile⟩

/-- Renders data to a device under a signal. Reaching the size limit is no
error here. -/
def renderUnder (template : Template) (data : Value) (device : Device) (signal : Signal) :
    Rendering :=
  if !template.isValid then refuse (.invalid template.document.errors) device signal
  else match signal.check with
    | (.error error, signal) => refuse error device signal
    | (.ok (), signal) =>
        let settings := template.options.settings
        let start : Run := {
          sink := .new device settings.encoding settings.maxSize
          signal
          session := .new settings.profiles
          unresolved := if template.options.observes then some [] else none }
        let (result, run) := (template.script data).perform start
        ⟨finish result run, run.sink.device, run.signal, run.unresolved.getD []⟩

/-- Renders data to a device. `caller` is the state of the caller's token, if
there is one. -/
def render (template : Template) (data : Value) (device : Device) (caller : Option Bool)
    (clock : Clock := .still) : Rendering :=
  template.renderUnder data device (.new caller template.options.settings.timeLimit clock)

/-- Renders data to a device that is opened only for a valid template. -/
def renderOpening (template : Template) (data : Value)
    (opening : Unit → Except DeviceError Device) (caller : Option Bool)
    (clock : Clock := .still) : Rendering :=
  if template.isValid then
    match opening () with
    | .ok device => template.render data device caller clock
    | .error cause => refuse (.device cause) .memory (.new caller none)
  else refuse (.invalid template.document.errors) .memory (.new caller none)

/-- The text of what a render wrote into memory, if it wrote all of it. -/
def textOf (template : Template) (rendering : Rendering) : Except RenderError String := do
  let settings := template.options.settings
  let output ← rendering.result
  if output.limitReached then .error (.outputLimit settings.maxSize)
  else pure (settings.encoding.decode rendering.device.held.toList)

/-- Renders data into memory, under a time limit of its own or that of the
settings. -/
def renderWithin (template : Template) (data : Value) (caller : Option Bool)
    (timeLimit : Option Duration) (clock : Clock := .still) : Rendering :=
  template.renderUnder data .memory
    (.new caller (timeLimit.or template.options.settings.timeLimit) clock)

/-- The text that a template becomes with some data. -/
def renderText (template : Template) (data : Value) (caller : Option Bool)
    (clock : Clock := .still) : Except RenderError String :=
  template.textOf (template.renderWithin data caller none clock)

end Template

end Stencil
