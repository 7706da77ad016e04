import Stencil.Template

/-!
The trace of a run: every event that was handled, with the item it belongs to
and what came of it. What a run leaves behind is determined by its trace, so
that a property of single events becomes one of whole runs.
-/

namespace Stencil

/-- The item that a bracket is about. -/
def Bracket.item? : Bracket → Option Item
  | .item rendered => some rendered
  | .reference _ => none

/-- An event that was handled, the innermost item that it belongs to, and what
came of it. -/
structure Moment where
  item : Option Item
  event : Event
  result : Except RenderError Unit

/-- The text that an event hands to the sink, if there is any. -/
def Event.handed : Event → List String
  | write text => if text.isEmpty then [] else [text]
  | _ => []

theorem Event.handed_empty {text : String} (h : text.isEmpty = true) :
    (Event.write text).handed = [] := by
  rw [handed, if_pos h]

theorem Event.handed_nonempty {text : String} (h : ¬text.isEmpty = true) :
    (Event.write text).handed = [text] := by
  rw [handed, if_neg h]

/-- The texts that are handed to the sink. -/
def handedTexts (moments : List Moment) : List String :=
  moments.flatMap fun moment => moment.event.handed

theorem handedTexts_append (first second : List Moment) :
    handedTexts (first ++ second) = handedTexts first ++ handedTexts second :=
  List.flatMap_append

/-- The events that a run handles when it performs a script, which belongs to
an item or to none. -/
def Script.trace : Script → Option Item → Run → List Moment
  | done, _, _ => []
  | fail _, _, _ => []
  | event e next, item, run =>
      ⟨item, e, (run.handle e).1⟩ ::
        match run.handle e with
        | (.ok (), run) => (next ()).trace item run
        | (.error _, _) => []
  | inside bracket body next, item, run =>
      body.trace (bracket.item?.or item) (run.enter bracket) ++
        match body.perform (run.enter bracket) with
        | (.ok (), run) => (next ()).trace item (run.leave bracket)
        | (.error _, _) => []
  | attempt body next, item, run =>
      body.trace item run ++ match body.perform run with
        | (result, run) => (next result).trace item run
  | declared name next, item, run => (next (run.session.declared? name)).trace item run
  | partials next, item, run => (next run.session.stack).trace item run

namespace Script

variable {e : Event} {bracket : Bracket} {body : Script} {next : Unit → Script}
  {item : Option Item} {run after : Run} {error : RenderError}

theorem perform_event (h : run.handle e = (.ok (), after)) :
    (event e next).perform run = (next ()).perform after := by
  rw [perform, h]

theorem perform_event_error (h : run.handle e = (.error error, after)) :
    (event e next).perform run = (.error error, after) := by
  rw [perform, h]

theorem perform_inside (h : body.perform (run.enter bracket) = (.ok (), after)) :
    (inside bracket body next).perform run = (next ()).perform (after.leave bracket) := by
  rw [perform, h]

theorem perform_inside_error (h : body.perform (run.enter bracket) = (.error error, after)) :
    (inside bracket body next).perform run = (.error error, after.leave bracket) := by
  rw [perform, h]

theorem trace_event (h : run.handle e = (.ok (), after)) :
    (event e next).trace item run = ⟨item, e, .ok ()⟩ :: (next ()).trace item after := by
  rw [trace, h]

theorem trace_event_error (h : run.handle e = (.error error, after)) :
    (event e next).trace item run = [⟨item, e, .error error⟩] := by
  rw [trace, h]

theorem trace_inside (h : body.perform (run.enter bracket) = (.ok (), after)) :
    (inside bracket body next).trace item run =
      body.trace (bracket.item?.or item) (run.enter bracket) ++
        (next ()).trace item (after.leave bracket) := by
  rw [trace, h]

theorem trace_inside_error (h : body.perform (run.enter bracket) = (.error error, after)) :
    (inside bracket body next).trace item run =
      body.trace (bracket.item?.or item) (run.enter bracket) := by
  rw [trace, h, List.append_nil]

/-- Whatever comes of an attempt, the script goes on from the run that it left. -/
theorem perform_attempt (body : Script) (next : Except RenderError Unit → Script) (run : Run) :
    (attempt body next).perform run =
      (next (body.perform run).1).perform (body.perform run).2 := rfl

theorem trace_attempt (body : Script) (next : Except RenderError Unit → Script)
    (item : Option Item) (run : Run) :
    (attempt body next).trace item run = body.trace item run ++
      (next (body.perform run).1).trace item (body.perform run).2 := rfl

/-- Scripts in sequence are traced in sequence. -/
theorem trace_andThen (script : Script) (rest : Unit → Script) (item : Option Item) (run : Run) :
    (script.andThen rest).trace item run = script.trace item run ++
      match script.perform run with
      | (.ok (), run) => (rest ()).trace item run
      | (.error _, _) => [] := by
  induction script generalizing item run with
  | done => rfl
  | fail error => rfl
  | event e next ih =>
      rw [andThen]
      rcases hhandle : run.handle e with ⟨result, after⟩
      cases result with
      | error error =>
          rw [trace_event_error hhandle, trace_event_error hhandle, perform_event_error hhandle]
          rfl
      | ok =>
          rw [trace_event hhandle, trace_event hhandle, perform_event hhandle, ih () item after]
          rfl
  | inside bracket body next _ ih =>
      rw [andThen]
      rcases hperform : body.perform (run.enter bracket) with ⟨result, after⟩
      cases result with
      | error error =>
          rw [trace_inside_error hperform, trace_inside_error hperform,
            perform_inside_error hperform, List.append_nil]
      | ok =>
          rw [trace_inside hperform, trace_inside hperform, perform_inside hperform,
            ih () item (after.leave bracket), List.append_assoc]
  | attempt body next _ ih =>
      rw [andThen, trace_attempt, trace_attempt, perform_attempt, ih, List.append_assoc]
  | declared name next ih => exact ih _ item run
  | partials next ih => exact ih _ item run

theorem handedTexts_trace_event (h : run.handle e = (.ok (), after)) :
    handedTexts ((event e next).trace item run) =
      e.handed ++ handedTexts ((next ()).trace item after) := by
  rw [trace_event h]
  rfl

theorem handedTexts_trace_event_error (h : run.handle e = (.error error, after)) :
    handedTexts ((event e next).trace item run) = e.handed := by
  rw [trace_event_error h]
  exact List.append_nil _

/-- What an event hands over comes first, whatever came of it. -/
theorem exists_handedTexts_event (e : Event) (next : Unit → Script) (item : Option Item)
    (run : Run) :
    ∃ rest, handedTexts ((event e next).trace item run) = e.handed ++ rest := by
  rcases hresult : run.handle e with ⟨result, after⟩
  cases result with
  | ok => exact ⟨_, handedTexts_trace_event hresult⟩
  | error error =>
      refine ⟨[], ?_⟩
      rw [handedTexts_trace_event_error hresult, List.append_nil]

/-- What the inside of a bracket hands over comes first, whatever came of it. -/
theorem exists_handedTexts_inside (bracket : Bracket) (body : Script) (next : Unit → Script)
    (item : Option Item) (run : Run) :
    ∃ rest, handedTexts ((inside bracket body next).trace item run) =
      handedTexts (body.trace (bracket.item?.or item) (run.enter bracket)) ++ rest := by
  rw [trace, handedTexts_append]
  exact ⟨_, rfl⟩

/-- What holds of every event and of entering and leaving brackets, and goes on
from one stretch of a run to the next, holds of whole runs. -/
theorem perform_induction {R : Run → List Moment → Run → Prop} (hnil : ∀ run, R run [] run)
    (hevent : ∀ run e item, R run [⟨item, e, (run.handle e).1⟩] (run.handle e).2)
    (henter : ∀ run bracket, R run [] (run.enter bracket))
    (hleave : ∀ run bracket, R run [] (run.leave bracket))
    (htrans : ∀ {run middle last first second}, R run first middle → R middle second last →
      R run (first ++ second) last) (script : Script) (item : Option Item) (run : Run) :
    R run (script.trace item run) (script.perform run).2 := by
  induction script generalizing item run with
  | done => exact hnil run
  | fail error => exact hnil run
  | event e next ih =>
      have hfirst := hevent run e item
      rcases hhandle : run.handle e with ⟨result, after⟩
      rw [hhandle] at hfirst
      cases result with
      | error error =>
          rw [trace_event_error hhandle, perform_event_error hhandle]
          exact hfirst
      | ok =>
          rw [trace_event hhandle, perform_event hhandle]
          exact htrans hfirst (ih () item after)
  | inside bracket body next ihbody ih =>
      have hbody := htrans (henter run bracket) (ihbody (bracket.item?.or item) (run.enter bracket))
      rcases hperform : body.perform (run.enter bracket) with ⟨result, after⟩
      rw [hperform] at hbody
      have hleft := htrans hbody (hleave after bracket)
      rw [List.nil_append, List.append_nil] at hleft
      cases result with
      | error error =>
          rw [trace_inside_error hperform, perform_inside_error hperform]
          exact hleft
      | ok =>
          rw [trace_inside hperform, perform_inside hperform]
          exact htrans hleft (ih () item (after.leave bracket))
  | attempt body next ihbody ih => exact htrans (ihbody item run) (ih _ item _)
  | declared name next ih => exact ih _ item run
  | partials next ih => exact ih _ item run

end Script

namespace Run

@[simp] theorem sink_enter (run : Run) (bracket : Bracket) :
    (run.enter bracket).sink = run.sink := by
  cases bracket <;> rfl

@[simp] theorem sink_leave (run : Run) (bracket : Bracket) :
    (run.leave bracket).sink = run.sink := by
  cases bracket <;> rfl

/-- Recording what was rendered leaves the declared partials as they are. -/
theorem declared_leave (run : Run) (bracket : Bracket) :
    (run.leave bracket).session.declared = run.session.declared := by
  cases bracket with
  | reference name => rfl
  | item rendered =>
      simp only [leave, Session.recordItem]
      split
      · split <;> rfl
      · rfl

end Run

namespace Template

/-- The state in which a render starts. -/
def start (template : Template) (device : Device) (signal : Signal) : Run where
  sink := .new device template.options.settings.encoding template.options.settings.maxSize
  signal := signal
  session := .new template.options.settings.profiles
  unresolved := if template.options.observes then some [] else none

/-- The rendering that a performed script amounts to. -/
def report (done : Except RenderError Unit × Run) : Rendering :=
  ⟨finish done.1 done.2, done.2.sink.device, done.2.signal, done.2.unresolved.getD []⟩

/-- The events of a render. One that is refused has none. -/
def trace (template : Template) (data : Value) (device : Device) (signal : Signal) :
    List Moment :=
  if !template.isValid then []
  else match signal.check with
    | (.error _, _) => []
    | (.ok (), signal) => (template.script data).trace none (template.start device signal)

variable {template : Template} {data : Value} {device : Device} {signal signal' : Signal}

theorem renderUnder_invalid (hvalid : template.isValid = false) :
    template.renderUnder data device signal =
      ⟨.error (.invalid template.document.errors), device, signal, []⟩ := by
  simp only [renderUnder, hvalid]
  rfl

theorem trace_invalid (hvalid : template.isValid = false) :
    template.trace data device signal = [] := by
  simp only [trace, hvalid]
  rfl

/-- A render that is cancelled before it starts does nothing. -/
theorem renderUnder_stopped (hvalid : template.isValid = true) {error : RenderError}
    (hpoll : signal.check = (.error error, signal')) :
    template.renderUnder data device signal = ⟨.error error, device, signal', []⟩ := by
  simp only [renderUnder, hvalid, hpoll]
  rfl

theorem trace_stopped (hvalid : template.isValid = true) {error : RenderError}
    (hpoll : signal.check = (.error error, signal')) :
    template.trace data device signal = [] := by
  simp only [trace, hvalid, hpoll]
  rfl

theorem renderUnder_valid (hvalid : template.isValid = true)
    (hpoll : signal.check = (.ok (), signal')) :
    template.renderUnder data device signal =
      report ((template.script data).perform (template.start device signal')) := by
  simp only [renderUnder, hvalid, hpoll]
  rfl

theorem trace_valid (hvalid : template.isValid = true)
    (hpoll : signal.check = (.ok (), signal')) :
    template.trace data device signal =
      (template.script data).trace none (template.start device signal') := by
  simp only [trace, hvalid, hpoll]
  rfl

def greeting : Template where
  source := "Hello \x7b\x7bname\x7d\x7d!"
  document :=
    ⟨[.literal "Hello ",
      .output ⟨⟨[.name "name"], "name"⟩, [], ⟨8, 4, 1, 8⟩⟩ true ⟨6, 8, 1, 6⟩,
      .literal "!"], [], none⟩
  options := .default

end Template

end Stencil
