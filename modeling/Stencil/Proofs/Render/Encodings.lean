import Stencil.Proofs.Render.Limit
import Stencil.Proofs.Text.Decoding

/-!
The encoding only matters to the device. A run with another sink that takes
everything hands it the same texts, and has the same result. So renders under
all encodings write encodings of one text, from which a string is decoded.
-/

namespace Stencil

namespace Run

/-- The state of a run that writes to another sink. -/
def withSink (run : Run) (sink : Sink) : Run :=
  { run with sink }

variable {run : Run} {sink : Sink}

theorem withSink_enter (run : Run) (bracket : Bracket) (sink : Sink) :
    (run.withSink sink).enter bracket = (run.enter bracket).withSink sink := by
  cases bracket <;> rfl

theorem withSink_leave (run : Run) (bracket : Bracket) (sink : Sink) :
    (run.withSink sink).leave bracket = (run.leave bracket).withSink sink := by
  cases bracket <;> rfl

/-- What comes of an event does not depend on where its text goes. -/
theorem handle_withSink (h : run.sink.IsOpen) (hsink : sink.IsOpen) (e : Event) :
    (run.withSink sink).handle e =
      ((run.handle e).1, (run.handle e).2.withSink (sink.after e.handed)) := by
  cases e with
  | write text =>
      simp only [handle, withSink, Sink.write_open h, Sink.write_open hsink]
  | poll | look | cancel | declare =>
      simp only [Event.handed, Sink.after_nil]
      rfl

end Run

namespace Script

variable {run : Run} {sink : Sink}

/-- With another sink a script takes the same steps and writes the same texts. -/
theorem perform_withSink (script : Script) (item : Option Item) (h : run.sink.IsOpen)
    (hsink : sink.IsOpen) :
    script.perform (run.withSink sink) = ((script.perform run).1,
      (script.perform run).2.withSink (sink.after (handedTexts (script.trace item run)))) := by
  induction script generalizing item run sink with
  | done | fail error =>
      rw [trace, handedTexts, List.flatMap_nil, Sink.after_nil]
      rfl
  | event e next ih =>
      have hwritten := Run.handle_open h e
      have hhandle := Run.handle_withSink h hsink e
      rcases hresult : run.handle e with ⟨result, after⟩
      rw [hresult] at hwritten hhandle
      change after.sink = _ at hwritten
      cases result with
      | error error =>
          rw [perform_event_error hhandle, perform_event_error hresult,
            handedTexts_trace_event_error hresult]
      | ok =>
          have hopen := h.after e.handed
          rw [← hwritten] at hopen
          rw [perform_event hhandle, perform_event hresult, handedTexts_trace_event hresult,
            ih () item hopen (hsink.after e.handed), Sink.after_after]
  | inside bracket body next ihbody ih =>
      rw [← Run.sink_enter run bracket] at h
      have hwritten := body.perform_open (bracket.item?.or item) h
      have hbody := ihbody (bracket.item?.or item) h hsink
      rcases hresult : body.perform (run.enter bracket) with ⟨result, after⟩
      rw [← Run.withSink_enter, hresult] at hbody
      rw [hresult] at hwritten
      change after.sink = _ at hwritten
      cases result with
      | error error =>
          rw [perform_inside_error hbody, perform_inside_error hresult,
            trace_inside_error hresult, Run.withSink_leave]
      | ok =>
          have hopen := h.after (handedTexts (body.trace (bracket.item?.or item)
            (run.enter bracket)))
          rw [← hwritten, ← Run.sink_leave after bracket] at hopen
          rw [perform_inside hbody, perform_inside hresult, trace_inside hresult,
            Run.withSink_leave, ih () item hopen (hsink.after _), Sink.after_after,
            handedTexts_append]
  | attempt body next ihbody ih =>
      have hopen := h.after (handedTexts (body.trace item run))
      rw [← body.perform_open item h] at hopen
      rw [perform_attempt, perform_attempt, trace_attempt, ihbody item h hsink,
        ih _ item hopen (hsink.after _), Sink.after_after, handedTexts_append]
  | declared name next ih => exact ih _ item h hsink
  | partials next ih => exact ih _ item h hsink

end Script

theorem Device.toList_memory (bytes : List UInt8) :
    (Device.memory.held ++ bytes).toList = bytes := by
  simp [Device.memory]

/-- The options with another encoding. -/
def Options.withEncoding (options : Options) (encoding : Encoding) : Options :=
  { options with settings := { options.settings with encoding } }

namespace Template

/-- The template with another encoding. -/
def withEncoding (template : Template) (encoding : Encoding) : Template :=
  { template with options := template.options.withEncoding encoding }

/-- The encoding makes no difference to what a source is parsed as. -/
theorem parse_withEncoding (options : Options) (encoding : Encoding) (source : String) :
    parse (options.withEncoding encoding) source =
      (parse options source).withEncoding encoding := rfl

variable {encoding : Encoding} {device : Device}

theorem start_withEncoding (template : Template) (device first : Device) (signal : Signal) :
    (template.withEncoding encoding).start device signal =
      (template.start first signal).withSink
        (.new device encoding template.options.settings.maxSize) := rfl

/-- What a run came to besides its output: its profile, or the error that it ends
with. -/
def outcome (result : Except RenderError Unit) (run : Run) :
    Except RenderError (Option (List Sample)) :=
  match result with
  | .ok () | .error (.outputLimit _) => .ok run.session.profile
  | .error error => .error error

theorem finish_eq_outcome {run : Run} (hflush : run.sink.device.flushFails = false)
    (result : Except RenderError Unit) :
    finish result run =
      (outcome result run).map fun profile =>
        ⟨run.sink.written, run.sink.limitReached, profile⟩ := by
  have hok : run.sink.flush = .ok () := by
    simp only [Sink.flush, Device.flush, hflush, Bool.false_eq_true, if_false]
  rcases result with error | _
  case ok => simp only [finish, outcome, hok]; rfl
  case error =>
    cases error
    case outputLimit => simp only [finish, outcome, hok]; rfl
    all_goals rfl

/-- A render wrote a text, in an encoding, to a device that held some bytes, and had
this outcome. -/
structure Wrote (encoding : Encoding) (held : Array UInt8) (text : String)
    (outcome : Except RenderError (Option (List Sample))) (rendering : Rendering) : Prop where
  result : rendering.result =
    outcome.map fun profile => ⟨(encoding.encode text).length, false, profile⟩
  held : rendering.device.held = held ++ encoding.encode text

theorem wrote_refused (encoding : Encoding) (device : Device) (signal : Signal)
    (error : RenderError) :
    Wrote encoding device.held "" (.error error) ⟨.error error, device, signal, []⟩ := by
  refine ⟨rfl, ?_⟩
  rw [Encoding.encode_empty]
  exact Array.ext' (by simp)

/-- What a run reports that left texts in a sink which was new before. -/
theorem wrote_report {encoding : Encoding} {device : Device} {limit : Nat} {texts : List String}
    {run : Run} (hsink : run.sink = (Sink.new device encoding limit).after texts)
    (hflush : device.flushFails = false) (result : Except RenderError Unit) :
    Wrote encoding device.held (String.join texts) (outcome result run)
      (report (result, run)) := by
  have hflushed : run.sink.device.flushFails = false := by
    rw [hsink]
    exact hflush
  constructor
  · rw [report, finish_eq_outcome hflushed, ← Encoding.encodeAll_eq]
    simp only [hsink, Sink.written_after, Sink.new, Nat.zero_add]
    rfl
  · rw [report, ← Encoding.encodeAll_eq, hsink]
    rfl

/-- Text written into memory is read back from it. -/
theorem Wrote.textOf (template : Template) {text : String}
    {outcome : Except RenderError (Option (List Sample))} {rendering : Rendering}
    (h : Wrote template.options.settings.encoding Device.memory.held text outcome rendering) :
    template.textOf rendering = outcome.map fun _ => text := by
  have hheld : rendering.device.held.toList = template.options.settings.encoding.encode text := by
    rw [h.held, Device.toList_memory]
  cases outcome with
  | error error =>
      rw [Template.textOf, h.result]
      rfl
  | ok profile =>
      rw [Template.textOf, h.result, hheld]
      exact congrArg Except.ok (Encoding.decode_encode _ text)

/-- Under every encoding and to every device that takes everything, a render writes
one text and has one outcome. -/
theorem renderUnder_withEncoding (template : Template) (data : Value) (signal : Signal)
    (hmax : template.options.settings.maxSize = 0) :
    ∃ text outcome, ∀ encoding device, device.room = none → device.flushFails = false →
      Wrote encoding device.held text outcome
        ((template.withEncoding encoding).renderUnder data device signal) := by
  have hencoded (encoding : Encoding) :
      (template.withEncoding encoding).isValid = template.isValid := rfl
  cases hvalid : template.isValid with
  | false =>
      refine ⟨"", .error (.invalid template.document.errors), fun encoding device _ _ => ?_⟩
      rw [renderUnder_invalid (hencoded encoding ▸ hvalid)]
      exact wrote_refused ..
  | true =>
      rcases hpoll : signal.check with ⟨error | _, signal'⟩
      · refine ⟨"", .error error, fun encoding device _ _ => ?_⟩
        rw [renderUnder_stopped (hencoded encoding ▸ hvalid) hpoll]
        exact wrote_refused ..
      -- every render performs the script of this run, only with its own sink
      let run := template.start .memory signal'
      let texts := handedTexts ((template.script data).trace none run)
      let done := (template.script data).perform run
      refine ⟨String.join texts, outcome done.1 done.2, fun encoding device hroom hflush => ?_⟩
      let sink := Sink.new device encoding template.options.settings.maxSize
      have hopen : run.sink.IsOpen := ⟨hmax, rfl, rfl⟩
      have hopen' : sink.IsOpen := ⟨hmax, rfl, hroom⟩
      have hperform := (template.script data).perform_withSink none hopen hopen'
      have hscript : (template.withEncoding encoding).script data = template.script data := rfl
      rw [renderUnder_valid (hencoded encoding ▸ hvalid) hpoll, hscript,
        start_withEncoding template device .memory signal', hperform]
      have hsink : (done.2.withSink (sink.after texts)).sink = sink.after texts := rfl
      exact wrote_report hsink hflush done.1

/-- What a template renders to does not depend on the encoding: decoding undoes
encoding, sizes are those of the bytes, and texts are encoded one after the other.
Sources are parsed as they are under another encoding. So, without a size limit, there
is one text or error for all encodings, and what a device that takes everything is left
with is the encoding of the text. -/
theorem render_any_encoding (template : Template) (data : Value) (caller : Option Bool)
    (clock : Clock) (hmax : template.options.settings.maxSize = 0) :
    (∀ (encoding : Encoding) (s t : String),
      encoding.decode (encoding.encode s) = s ∧
      (encoding.encode s).length = encoding.encodedSize s ∧
      encoding.encode (s ++ t) = encoding.encode s ++ encoding.encode t) ∧
    (∀ (encoding : Encoding) (source : String),
      parse (template.options.withEncoding encoding) source =
        (parse template.options source).withEncoding encoding) ∧
    ∃ result : Except RenderError String, ∀ encoding : Encoding,
      (template.withEncoding encoding).renderText data caller clock = result ∧
      ∀ device : Device, device.room = none → device.flushFails = false →
        match result with
        | .ok text => ∃ profile,
            ((template.withEncoding encoding).render data device caller clock).result =
              .ok ⟨(encoding.encode text).length, false, profile⟩ ∧
            ((template.withEncoding encoding).render data device caller clock).device.held =
              device.held ++ encoding.encode text
        | .error error =>
            ((template.withEncoding encoding).render data device caller clock).result =
              .error error := by
  refine ⟨fun encoding s t => ⟨encoding.decode_encode s, (encoding.encodedSize_eq s).symm,
    encoding.encode_append s t⟩, parse_withEncoding template.options, ?_⟩
  obtain ⟨text, outcome, hwrote⟩ := template.renderUnder_withEncoding data
    (.new caller template.options.settings.timeLimit clock) hmax
  refine ⟨outcome.map fun _ => text, fun encoding => ⟨?_, fun device hroom hflush => ?_⟩⟩
  · exact (hwrote encoding .memory rfl rfl).textOf (template.withEncoding encoding)
  · obtain ⟨hresult, hheld⟩ := hwrote encoding device hroom hflush
    cases outcome with
    | error error => exact hresult
    | ok profile => exact ⟨profile, hresult, hheld⟩

/-- A name outside the basic plane takes four bytes under every encoding, but the
greeting is one text. -/
theorem greeting_any_encoding :
    let data := Value.map [("name", .string "😀")]
    let clock := Clock.still
    greeting.options.settings.maxSize = 0 ∧ ∀ encoding : Encoding,
      (greeting.withEncoding encoding).renderText data none clock = .ok "Hello 😀!" ∧
      ((greeting.withEncoding encoding).render data .memory none clock).device.held.toList =
        encoding.encode "Hello 😀!" := by
  intro data clock
  obtain ⟨-, -, result, hresult⟩ := render_any_encoding greeting data none clock rfl
  have hgreeting : result = .ok "Hello 😀!" := by
    rw [← (hresult .utf8).1]
    decide +kernel
  refine ⟨rfl, fun encoding => ?_⟩
  obtain ⟨htext, hdevice⟩ := hresult encoding
  have hmemory := hdevice .memory rfl rfl
  rw [hgreeting] at htext hmemory
  obtain ⟨-, -, hheld⟩ := hmemory
  rw [hheld, Device.toList_memory]
  exact ⟨htext, rfl⟩

end Template

end Stencil
