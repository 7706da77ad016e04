import Stencil.Proofs.Render.Attempts
import Stencil.Proofs.Sink.Limit

/-!
The size limit only cuts. A run under a limit takes the same steps as the run
without one until a text does not fit, and stops there. What it has written by
then are the texts that fit, of those that the other run writes.
-/

namespace Stencil

namespace Run

/-- The state of a run under a limit. -/
def withMax (run : Run) (limit : Nat) : Run :=
  { run with sink := run.sink.withMax limit }

variable {run : Run} {limit : Nat}

theorem withMax_enter (run : Run) (bracket : Bracket) (limit : Nat) :
    (run.withMax limit).enter bracket = (run.enter bracket).withMax limit := by
  cases bracket <;> rfl

theorem withMax_leave (run : Run) (bracket : Bracket) (limit : Nat) :
    (run.withMax limit).leave bracket = (run.leave bracket).withMax limit := by
  cases bracket <;> rfl

theorem handle_open (h : run.sink.IsOpen) (e : Event) :
    (run.handle e).2.sink = run.sink.after e.handed := by
  cases e with
  | write text => rw [handle, Sink.write_open h]
  | poll | look | cancel | declare => exact (Sink.after_nil _).symm

theorem handle_withMax (h : run.sink.IsOpen) {e : Event}
    (hfits : run.sink.Fits limit e.handed) :
    (run.withMax limit).handle e = ((run.handle e).1, (run.handle e).2.withMax limit) := by
  cases e with
  | write text =>
      simp only [handle, withMax, Sink.write_open h, Sink.write_withMax h hfits]
  | poll | look | cancel | declare => rfl

theorem handle_withMax_of_not_fits (h : run.sink.IsOpen) {e : Event} (hpositive : 0 < limit)
    (hlimit : run.sink.written ≤ limit) (hlong : ¬run.sink.Fits limit e.handed) :
    (run.withMax limit).handle e = (.error (.outputLimit limit),
      { run with sink := run.sink.stoppedAt limit }) := by
  cases e with
  | write text =>
      simp only [handle, withMax, Sink.write_withMax_of_not_fits h hpositive hlimit hlong]
  | poll | look | cancel | declare => exact absurd hlimit hlong

end Run

namespace Script

variable {run : Run} {limit : Nat}

/-- A run without a limit leaves all the texts that it hands to the sink. -/
theorem perform_open (script : Script) (item : Option Item) (h : run.sink.IsOpen) :
    (script.perform run).2.sink = run.sink.after (handedTexts (script.trace item run)) := by
  have hrun : run.sink.IsOpen → (script.perform run).2.sink =
      run.sink.after (handedTexts (script.trace item run)) := by
    apply perform_induction (R := fun run moments run' =>
      run.sink.IsOpen → run'.sink = run.sink.after (handedTexts moments))
    · intro run _
      exact (Sink.after_nil _).symm
    · intro run e item h
      rw [Run.handle_open h]
      simp [handedTexts]
    · intro run bracket _
      rw [Run.sink_enter]
      exact (Sink.after_nil _).symm
    · intro run bracket _
      rw [Run.sink_leave]
      exact (Sink.after_nil _).symm
    · intro run middle last first second hfirst hsecond h
      have hmiddle := hfirst h
      have hopen : middle.sink.IsOpen := by
        rw [hmiddle]
        exact h.after _
      rw [hsecond hopen, hmiddle, Sink.after_after, handedTexts_append]
  exact hrun h

/-- A limit within which all texts fit makes no difference. -/
theorem perform_withMax (script : Script) (item : Option Item) (h : run.sink.IsOpen)
    (hfits : run.sink.Fits limit (handedTexts (script.trace item run))) :
    script.perform (run.withMax limit) =
      ((script.perform run).1, (script.perform run).2.withMax limit) := by
  induction script generalizing item run with
  | done => rfl
  | fail error => rfl
  | event e next ih =>
      have hsink := Run.handle_open h e
      rcases hresult : run.handle e with ⟨result, after⟩
      rw [hresult] at hsink
      change after.sink = _ at hsink
      cases result with
      | error error =>
          rw [handedTexts_trace_event_error hresult] at hfits
          have hhandle := Run.handle_withMax h hfits
          rw [hresult] at hhandle
          rw [perform_event_error hhandle, perform_event_error hresult]
      | ok =>
          rw [handedTexts_trace_event hresult] at hfits
          have hhandle := Run.handle_withMax h hfits.left
          rw [hresult] at hhandle
          rw [perform_event hhandle, perform_event hresult]
          rw [Sink.fits_append, ← hsink] at hfits
          have hopen := h.after e.handed
          rw [← hsink] at hopen
          exact ih () item hopen hfits
  | inside bracket body next ihbody ih =>
      rw [← Run.sink_enter run bracket] at h hfits
      have hsink := body.perform_open (bracket.item?.or item) h
      rcases hresult : body.perform (run.enter bracket) with ⟨result, after⟩
      rw [hresult] at hsink
      change after.sink = _ at hsink
      cases result with
      | error error =>
          rw [trace_inside_error hresult] at hfits
          have hbody := ihbody (bracket.item?.or item) h hfits
          rw [← Run.withMax_enter, hresult] at hbody
          rw [perform_inside_error hbody, perform_inside_error hresult, Run.withMax_leave]
      | ok =>
          rw [trace_inside hresult, handedTexts_append] at hfits
          have hbody := ihbody (bracket.item?.or item) h hfits.left
          rw [← Run.withMax_enter, hresult] at hbody
          rw [perform_inside hbody, perform_inside hresult, Run.withMax_leave]
          rw [← Run.sink_leave after bracket] at hsink
          rw [Sink.fits_append, ← hsink] at hfits
          have hopen := h.after (handedTexts (body.trace (bracket.item?.or item)
            (run.enter bracket)))
          rw [← hsink] at hopen
          exact ih () item hopen hfits
  | attempt body next ihbody ih =>
      have hsink := body.perform_open item h
      have hopen := h.after (handedTexts (body.trace item run))
      rw [trace_attempt, handedTexts_append] at hfits
      have hbody := ihbody item h hfits.left
      rw [Sink.fits_append, ← hsink] at hfits
      rw [← hsink] at hopen
      rw [perform_attempt, perform_attempt, hbody]
      exact ih _ item hopen hfits
  | declared name next ih => exact ih _ item h hfits
  | partials next ih => exact ih _ item h hfits

/-- Under a limit that not all texts fit in, the run ends with the limit's error
after the texts that fit. Whatever else the run without a limit does from there
on is not done. -/
theorem perform_cut {script : Script} (hstrict : script.IsStrict) (item : Option Item)
    (h : run.sink.IsOpen) (hpositive : 0 < limit) (hlimit : run.sink.written ≤ limit)
    (hlong : ¬run.sink.Fits limit (handedTexts (script.trace item run))) :
    ∃ stopped, script.perform (run.withMax limit) = (.error (.outputLimit limit), stopped) ∧
      stopped.sink = run.sink.cut limit (handedTexts (script.trace item run)) := by
  induction script generalizing item run with
  | done => exact absurd hlimit hlong
  | fail error => exact absurd hlimit hlong
  | event e next ih =>
      have hsink := Run.handle_open h e
      rcases hresult : run.handle e with ⟨result, after⟩
      rw [hresult] at hsink
      change after.sink = _ at hsink
      by_cases hfits : run.sink.Fits limit e.handed
      · have hhandle := Run.handle_withMax h hfits
        rw [hresult] at hhandle
        cases result with
        | error error =>
            rw [handedTexts_trace_event_error hresult] at hlong
            exact absurd hfits hlong
        | ok =>
            rw [handedTexts_trace_event hresult] at hlong ⊢
            rw [Sink.fits_append, ← hsink] at hlong
            have hopen := h.after e.handed
            rw [← hsink] at hopen
            have hwritten : after.sink.written ≤ limit := by
              rw [hsink]
              exact hfits
            obtain ⟨stopped, hperform, hstopped⟩ := ih () hstrict item hopen hwritten hlong
            refine ⟨stopped, by rw [perform_event hhandle, hperform], ?_⟩
            rw [hstopped, Sink.cut_append hfits, hsink]
      · have hhandle := Run.handle_withMax_of_not_fits h hpositive hlimit hfits
        obtain ⟨rest, hrest⟩ := exists_handedTexts_event e next item run
        refine ⟨_, perform_event_error hhandle, ?_⟩
        rw [hrest, Sink.cut_handed hlimit hfits]
  | inside bracket body next ihbody ih =>
      rw [← Run.sink_enter run bracket] at h hlimit hlong ⊢
      have hsink := body.perform_open (bracket.item?.or item) h
      by_cases hfits : (run.enter bracket).sink.Fits limit (handedTexts
          (body.trace (bracket.item?.or item) (run.enter bracket)))
      · have hbody := body.perform_withMax (bracket.item?.or item) h hfits
        rcases hresult : body.perform (run.enter bracket) with ⟨result, after⟩
        rw [← Run.withMax_enter, hresult] at hbody
        rw [hresult] at hsink
        change after.sink = _ at hsink
        cases result with
        | error error =>
            rw [trace_inside_error hresult] at hlong
            exact absurd hfits hlong
        | ok =>
            rw [trace_inside hresult, handedTexts_append] at hlong ⊢
            rw [← Run.sink_leave after bracket] at hsink
            rw [Sink.fits_append, ← hsink] at hlong
            have hopen := h.after (handedTexts (body.trace (bracket.item?.or item)
              (run.enter bracket)))
            rw [← hsink] at hopen
            have hwritten : (after.leave bracket).sink.written ≤ limit := by
              rw [hsink]
              exact hfits
            obtain ⟨stopped, hperform, hstopped⟩ := ih () hstrict.2 item hopen hwritten hlong
            refine ⟨stopped, by rw [perform_inside hbody, Run.withMax_leave, hperform], ?_⟩
            rw [hstopped, Sink.cut_append hfits, hsink]
      · obtain ⟨stopped, hperform, hstopped⟩ :=
          ihbody hstrict.1 (bracket.item?.or item) h hlimit hfits
        rw [← Run.withMax_enter] at hperform
        obtain ⟨rest, hrest⟩ := exists_handedTexts_inside bracket body next item run
        refine ⟨_, perform_inside_error hperform, ?_⟩
        rw [Run.sink_leave, hstopped, hrest, Sink.cut_append_of_not_fits hlimit hfits]
  | attempt => cases hstrict
  | declared name next ih => exact ih _ (hstrict _) item h hlimit hlong
  | partials next ih => exact ih _ (hstrict _) item h hlimit hlong

end Script

namespace Template

/-- The template with another size limit, of which zero is none. -/
def withCap (template : Template) (limit : Nat) : Template :=
  { template with
    options := { template.options with
      settings := { template.options.settings with maxSize := limit } } }

/-- How a rendering under a limit differs from one without, which hands these
texts to its sink: not at all if they fit, and else by stopping after the
longest beginning of them that fits. `held` is what the device held before. -/
structure OnlyCuts (encoding : Encoding) (limit : Nat) (texts : List String)
    (held : Array UInt8) (free limited : Rendering) : Prop where
  fits : (encoding.encodeAll texts).length ≤ limit →
    limited = free ∧ ∀ output, limited.result = .ok output → output.limitReached = false
  cuts : limit < (encoding.encodeAll texts).length →
    ∃ count profile,
      IsGreatest {j | j ≤ texts.length ∧ (encoding.encodeAll (texts.take j)).length ≤ limit}
        count ∧
      limited.result = .ok ⟨(encoding.encodeAll (texts.take count)).length, true, profile⟩ ∧
      limited.device.held = held ++ encoding.encodeAll (texts.take count)

/-- The same for renderings into a string, where the limit is an error. -/
structure OnlyCutsText (encoding : Encoding) (limit : Nat) (texts : List String)
    (free limited : Except RenderError String) : Prop where
  fits : (encoding.encodeAll texts).length ≤ limit → limited = free
  cuts : limit < (encoding.encodeAll texts).length → limited = .error (.outputLimit limit)

variable {device : Device} {signal : Signal} {limit : Nat}

theorem finish_withMax (result : Except RenderError Unit) (run : Run) (limit : Nat) :
    finish result (run.withMax limit) = finish result run := by
  rcases result with error | _
  · cases error <;> rfl
  · rfl

theorem limitReached_of_finish {result : Except RenderError Unit} {run : Run} {output : Output}
    (h : finish result run = .ok output) : output.limitReached = run.sink.limitReached := by
  have hflushed {flushed : Except RenderError Unit}
      (h : (do flushed; pure ⟨run.sink.written, run.sink.limitReached, run.session.profile⟩) =
        Except.ok output) : output.limitReached = run.sink.limitReached := by
    cases flushed with
    | error error => cases h
    | ok =>
        cases h
        rfl
  rcases result with error | _
  · cases error
    case outputLimit => exact hflushed h
    all_goals cases h
  · exact hflushed h

/-- A run that the limit stopped has a result like one that came to its end. -/
theorem finish_outputLimit {run : Run} (hflush : run.sink.device.flushFails = false)
    (limit : Nat) :
    finish (.error (.outputLimit limit)) run =
      .ok ⟨run.sink.written, run.sink.limitReached, run.session.profile⟩ := by
  simp only [finish, Sink.flush, Device.flush, hflush]
  rfl

/-- A limit makes no difference to a render that does not start. -/
theorem onlyCuts_refused (encoding : Encoding) (limit : Nat) (held : Array UInt8)
    {rendering : Rendering} {error : RenderError} (h : rendering.result = .error error) :
    OnlyCuts encoding limit [] held rendering rendering := by
  refine ⟨fun _ => ⟨rfl, ?_⟩, ?_⟩
  · intro output houtput
    rw [h] at houtput
    cases houtput
  · intro hlong
    exact absurd hlong (Nat.not_lt_zero limit)

/-- What a run reports under a limit, compared to the run without one. -/
theorem performed_onlyCuts (run : Run) {script : Script} (hstrict : script.IsStrict)
    (hopen : run.sink.IsOpen) (hwritten : run.sink.written = 0)
    (hflush : run.sink.device.flushFails = false) (hpositive : 0 < limit) :
    OnlyCuts run.sink.encoding limit (handedTexts (script.trace none run)) run.sink.device.held
      (report (script.perform run)) (report (script.perform (run.withMax limit))) := by
  have hroom : run.sink.Fits limit (handedTexts (script.trace none run)) ↔
      (run.sink.encoding.encodeAll (handedTexts (script.trace none run))).length ≤ limit := by
    rw [Sink.Fits, hwritten, Nat.zero_add]
  constructor
  · intro hfits
    have hsink := script.perform_open none hopen
    rw [script.perform_withMax none hopen (hroom.mpr hfits)]
    constructor
    · simp only [report, finish_withMax]
      rfl
    · intro output houtput
      rw [report, finish_withMax] at houtput
      rw [limitReached_of_finish houtput, hsink]
      exact hopen.notReached
  · intro hlong
    have hlimit : run.sink.written ≤ limit := by omega
    obtain ⟨stopped, hperform, hsink⟩ := Script.perform_cut hstrict none hopen hpositive hlimit
      (fun hfits => Nat.not_le_of_lt hlong (hroom.mp hfits))
    obtain ⟨count, htake, hgreatest⟩ :=
      run.sink.encoding.fitting_isGreatest limit (handedTexts (script.trace none run))
    rw [Sink.cut, hwritten, Nat.sub_zero, htake] at hsink
    have hflushed : stopped.sink.device.flushFails = false := by
      rw [hsink]
      exact hflush
    refine ⟨count, stopped.session.profile, hgreatest, ?_, ?_⟩
    · rw [hperform, report, finish_outputLimit hflushed, hsink]
      simp [Sink.stoppedAt, hwritten]
    · rw [hperform, report, hsink]
      rfl

/-- Whatever the data and whatever becomes of the render: a limit only cuts. -/
theorem renderUnder_withCap {template : Template} (hpasses : template.PassesErrors)
    (data : Value) (device : Device) (signal : Signal) (hpositive : 0 < limit)
    (hroom : device.room = none) (hflush : device.flushFails = false) :
    OnlyCuts template.options.settings.encoding limit
      (handedTexts ((template.withCap 0).trace data device signal)) device.held
      ((template.withCap 0).renderUnder data device signal)
      ((template.withCap limit).renderUnder data device signal) := by
  cases hvalid : template.isValid with
  | false =>
      have hinvalid (limit : Nat) : (template.withCap limit).isValid = false := hvalid
      rw [trace_invalid (hinvalid 0), renderUnder_invalid (hinvalid 0),
        renderUnder_invalid (hinvalid limit)]
      exact onlyCuts_refused _ _ _ rfl
  | true =>
      have hvalid (limit : Nat) : (template.withCap limit).isValid = true := hvalid
      rcases hpoll : signal.check with ⟨error | _, signal'⟩
      · rw [trace_stopped (hvalid 0) hpoll, renderUnder_stopped (hvalid 0) hpoll,
          renderUnder_stopped (hvalid limit) hpoll]
        exact onlyCuts_refused _ _ _ rfl
      have hscript (limit : Nat) : (template.withCap limit).script data = template.script data :=
        rfl
      have hsession (limit : Nat) :
          ((template.withCap limit).start device signal').session.Obeys template.declaring :=
        Session.obeys_new _ _
      obtain ⟨hfree, htrace⟩ := strict_script hpasses data (hsession 0)
      have hlimited := (strict_script hpasses data (hsession limit)).1
      rw [trace_valid (hvalid 0) hpoll, renderUnder_valid (hvalid 0) hpoll,
        renderUnder_valid (hvalid limit) hpoll, hscript, hscript, ← htrace, ← hfree, ← hlimited]
      -- both runs perform one script, from states that differ in the limit alone
      exact performed_onlyCuts ((template.withCap 0).start device signal')
        (template.script data).isStrict_strict ⟨rfl, rfl, hroom⟩ rfl hflush hpositive

theorem textOf_withCap {template : Template} (hpasses : template.PassesErrors) (data : Value)
    (hpositive : 0 < limit) :
    OnlyCutsText template.options.settings.encoding limit
      (handedTexts ((template.withCap 0).trace data .memory signal))
      ((template.withCap 0).textOf ((template.withCap 0).renderUnder data .memory signal))
      ((template.withCap limit).textOf
        ((template.withCap limit).renderUnder data .memory signal)) := by
  obtain ⟨hfits, hcuts⟩ := renderUnder_withCap hpasses data .memory signal hpositive rfl rfl
  constructor
  · intro htexts
    obtain ⟨hsame, hreached⟩ := hfits htexts
    rw [hsame] at hreached ⊢
    rcases hresult : ((template.withCap 0).renderUnder data .memory signal).result with
      error | output
    · simp only [textOf, hresult]
      rfl
    · have hnot := hreached output hresult
      simp only [textOf, hresult]
      change (if output.limitReached = true then _ else _) = ite (output.limitReached = true) _ _
      rw [hnot]
      rfl
  · intro hlong
    obtain ⟨count, profile, -, hresult, -⟩ := hcuts hlong
    simp only [textOf, hresult]
    rfl

/-- A size limit only cuts, between two texts, wherever the output goes: to a
device that takes everything, or into a string. If there are items of providers,
errors are taken to end their recipes. -/
theorem limit_only_cuts (template : Template) (hpasses : template.PassesErrors) (data : Value)
    (caller : Option Bool) (clock : Clock) (hpositive : 0 < limit) :
    (∀ device : Device, device.room = none → device.flushFails = false →
      OnlyCuts template.options.settings.encoding limit
        (handedTexts ((template.withCap 0).trace data device
          (.new caller template.options.settings.timeLimit clock))) device.held
        ((template.withCap 0).render data device caller clock)
        ((template.withCap limit).render data device caller clock)) ∧
    OnlyCutsText template.options.settings.encoding limit
      (handedTexts ((template.withCap 0).trace data .memory
        (.new caller template.options.settings.timeLimit clock)))
      ((template.withCap 0).renderText data caller clock)
      ((template.withCap limit).renderText data caller clock) ∧
    ∀ timeLimit : Option Duration,
      OnlyCutsText template.options.settings.encoding limit
        (handedTexts ((template.withCap 0).trace data .memory
          (.new caller (timeLimit.or template.options.settings.timeLimit) clock)))
        ((template.withCap 0).textOf
          ((template.withCap 0).renderWithin data caller timeLimit clock))
        ((template.withCap limit).textOf
          ((template.withCap limit).renderWithin data caller timeLimit clock)) := by
  refine ⟨?_, ?_, ?_⟩
  · intro device hroom hflush
    exact renderUnder_withCap hpasses data device _ hpositive hroom hflush
  · exact textOf_withCap hpasses data hpositive
  · intro timeLimit
    exact textOf_withCap hpasses data hpositive

/-- Of `Hello World!` eight bytes leave `Hello ` to a device, and no string. -/
theorem greeting_is_cut :
    let data := Value.map [("name", .string "World")]
    let clock := Clock.still
    let signal := Signal.new none greeting.options.settings.timeLimit clock
    let texts := handedTexts ((greeting.withCap 0).trace data .memory signal)
    greeting.PassesErrors ∧ 0 < 8 ∧ Device.memory.room = none ∧ Device.memory.flushFails = false ∧
    texts = ["Hello ", "World", "!"] ∧
    OnlyCuts greeting.options.settings.encoding 8 texts Device.memory.held
      ((greeting.withCap 0).render data .memory none clock)
      ((greeting.withCap 8).render data .memory none clock) ∧
    (greeting.withCap 8).renderText data none clock = .error (.outputLimit 8) := by
  intro data clock signal texts
  have htexts : texts = ["Hello ", "World", "!"] := by
    decide +kernel
  have hpasses : greeting.PassesErrors := passesErrors_of_stock (List.nil_subset _)
  have hpositive : 0 < 8 := by omega
  obtain ⟨hdevice, hstring, -⟩ := limit_only_cuts greeting hpasses data none clock hpositive
  have hlong : 8 < (greeting.options.settings.encoding.encodeAll texts).length := by
    rw [htexts]
    decide
  exact ⟨hpasses, hpositive, rfl, rfl, htexts, hdevice .memory rfl rfl, hstring.cuts hlong⟩

end Template

end Stencil
