import Stencil.Proofs.Document.SelfReference
import Stencil.Proofs.Render.Encodings

/-!
A partial that refers to itself. Its body is rendered as often as partials may be
nested: the text before the reference once on the way into each level, the one
behind it once on the way out, unless the reference beyond the last level stops
the render.
-/

namespace Stencil

/-- A text so many times. -/
def repeated (count : Nat) (text : String) : String :=
  String.join (List.replicate count text)

theorem repeated_succ (count : Nat) (text : String) :
    repeated (count + 1) text = text ++ repeated count text := by
  rw [repeated, List.replicate_succ, String.join_cons, repeated]

theorem repeated_succ' (count : Nat) (text : String) :
    repeated (count + 1) text = repeated count text ++ text := by
  rw [repeated, List.replicate_succ', String.join_append, String.join_cons, repeated]
  simp

/-- Nothing but its script stops a run, which has a body for a partial. -/
structure Run.Knows (run : Run) (name : String) (body : List Item) : Prop where
  isOpen : run.sink.IsOpen
  quiet : run.signal.check = (.ok (), run.signal)
  declared : run.session.declared? name = some body

namespace Run.Knows

variable {run : Run} {name : String} {body : List Item}

theorem enter (h : run.Knows name body) (bracket : Bracket) :
    (run.enter bracket).Knows name body := by
  cases bracket <;> exact ⟨h.isOpen, h.quiet, h.declared⟩

theorem leave (h : run.Knows name body) (bracket : Bracket) :
    (run.leave bracket).Knows name body := by
  refine ⟨by rw [sink_leave]; exact h.isOpen, ?_, ?_⟩
  · cases bracket <;> exact h.quiet
  · rw [Session.declared?, declared_leave]
    exact h.declared

theorem after (h : run.Knows name body) (texts : List String) :
    ({ run with sink := run.sink.after texts } : Run).Knows name body :=
  ⟨h.isOpen.after texts, h.quiet, h.declared⟩

end Run.Knows

theorem Sink.after_join (sink : Sink) (texts : List String) :
    sink.after texts = sink.after [String.join texts] := by
  simp [Sink.after, Encoding.encodeAll_eq]

theorem Sink.after_write (sink : Sink) (text : String) :
    sink.after (Event.write text).handed = sink.after [text] := by
  by_cases hempty : text.isEmpty = true
  · rw [Event.handed_empty hempty, String.isEmpty_iff.mp hempty]
    exact sink.after_join []
  · rw [Event.handed_nonempty hempty]

namespace Script

/-- Whenever the body of a partial is known and nothing else stops the run, the
script writes this text and has this result. -/
def Writes (name : String) (body : List Item) (text : String) (result : Except RenderError Unit)
    (script : Script) : Prop :=
  ∀ run : Run, run.Knows name body → ∃ after, script.perform run = (result, after) ∧
    after.Knows name body ∧ after.sink = run.sink.after [text]

section

variable {name : String} {body : List Item} {text text' : String} {error : RenderError}
  {result : Except RenderError Unit} {script : Script} {next : Unit → Script}

theorem writes_nothing (hperform : ∀ run : Run, script.perform run = (result, run)) :
    Writes name body "" result script := fun run hrun =>
  ⟨run, hperform run, hrun, (Sink.after_nil _).symm.trans (Sink.after_join _ [])⟩

theorem writes_write (text : String) : Writes name body text (.ok ()) (write text) := by
  intro run hrun
  refine ⟨_, ?_, hrun.after [text], rfl⟩
  have hwrite : run.handle (.write text) =
      (.ok (), { run with sink := run.sink.after [text] }) := by
    simp only [Run.handle, Sink.write_open hrun.isOpen, Sink.after_write]
  exact perform_event hwrite

theorem Writes.poll (h : Writes name body text result (next ())) :
    Writes name body text result (.event .poll next) := by
  intro run hrun
  have hpoll : run.handle .poll = (.ok (), run) := by
    simp only [Run.handle, hrun.quiet]
  rw [perform_event hpoll]
  exact h run hrun

theorem Writes.inside (bracket : Bracket) (hscript : Writes name body text (.ok ()) script)
    (hnext : Writes name body text' result (next ())) :
    Writes name body (text ++ text') result (.inside bracket script next) := by
  intro run hrun
  obtain ⟨middle, hperform, hmiddle, hsink⟩ := hscript _ (hrun.enter bracket)
  obtain ⟨after, hrest, hafter, hsink'⟩ := hnext _ (hmiddle.leave bracket)
  refine ⟨after, by rw [perform_inside hperform, hrest], hafter, ?_⟩
  rw [hsink', Run.sink_leave, hsink, Run.sink_enter, Sink.after_after, Sink.after_join]
  simp

theorem Writes.inside_error (bracket : Bracket)
    (hscript : Writes name body text (.error error) script) :
    Writes name body text (.error error) (.inside bracket script next) := by
  intro run hrun
  obtain ⟨after, hperform, hafter, hsink⟩ := hscript _ (hrun.enter bracket)
  refine ⟨_, perform_inside_error hperform, hafter.leave bracket, ?_⟩
  rw [Run.sink_leave, hsink, Run.sink_enter]

/-- A bracket behind which nothing follows changes nothing. -/
theorem Writes.enclosed (bracket : Bracket) (hscript : Writes name body text result script)
    (hnext : next () = .done) : Writes name body text result (.inside bracket script next) := by
  cases result with
  | error error => exact hscript.inside_error bracket
  | ok =>
      have hnothing : Writes name body "" (.ok ()) (next ()) :=
        writes_nothing fun run => by rw [hnext]; rfl
      have hinside := hscript.inside bracket hnothing
      rwa [String.append_empty] at hinside

end

section

variable {name : String} {body : List Item} {text text' : String} {error : RenderError}
  {result : Except RenderError Unit} {env : Environment} {enter : String → Body} {first : Item}
  {rest : List Item} {ctx : Context}

theorem Writes.items (hfirst : Writes name body text (.ok ()) (item env enter first ctx))
    (hrest : Writes name body text' result (items env enter rest ctx)) :
    Writes name body (text ++ text') result (items env enter (first :: rest) ctx) := by
  rw [items_cons]
  exact (Writes.inside _ hfirst hrest).poll

theorem Writes.items_error (rest : List Item)
    (hfirst : Writes name body text (.error error) (item env enter first ctx)) :
    Writes name body text (.error error) (Script.items env enter (first :: rest) ctx) := by
  rw [items_cons]
  exact (Writes.inside_error _ hfirst).poll

theorem Writes.literals (text : String)
    (hrest : Writes name body text' result (Script.items env enter rest ctx)) :
    Writes name body (text ++ text') result
      (Script.items env enter (Item.literals text ++ rest) ctx) := by
  rw [Item.literals]
  split
  · rename_i hempty
    rw [String.isEmpty_iff.mp hempty, String.empty_append]
    exact hrest
  · have hliteral : Writes name body text (.ok ()) (item env enter (.literal text) ctx) :=
      writes_write text
    exact hliteral.items hrest

theorem writes_literals (text : String) :
    Writes name body text (.ok ()) (Script.items env enter (Item.literals text) ctx) := by
  have hnothing : Writes name body "" (.ok ()) (Script.items env enter [] ctx) :=
    writes_nothing fun run => rfl
  have hliterals := Writes.literals text hnothing
  rwa [List.append_nil, String.append_empty] at hliterals

/-- The last of some items. -/
theorem Writes.last (h : Writes name body text result (item env enter first ctx)) :
    Writes name body text result (Script.items env enter [first] ctx) := by
  rw [items_cons]
  exact (h.enclosed _ (items_nil ctx)).poll

theorem Writes.reference (env : Environment) (span : Span)
    (h : Writes name body text result (enter name ctx)) :
    Writes name body text result (item env enter (.reference name span) ctx) :=
  h

/-- Entering a partial whose body is known writes what the body does. -/
theorem Writes.enterPartial {levels : Nat}
    (h : Writes name body text result (Script.items env (enterPartial env levels) body ctx)) :
    Writes name body text result (Script.enterPartial env (levels + 1) name ctx) := by
  intro run hrun
  have hinside : Writes name body text result (.inside (.reference name)
      (Script.items env (Script.enterPartial env levels) body ctx) fun _ => .done) :=
    h.enclosed (.reference name) rfl
  obtain ⟨after, hperform, hafter⟩ := hinside run hrun
  refine ⟨after, ?_, hafter⟩
  rw [Script.enterPartial, partialBody, perform, hrun.declared]
  exact hperform

end

section

variable {env : Environment} {name first last : String} {span : Span}

/-- Each level writes the first text, and the last one when the levels inside have
come to their ends. -/
theorem writes_skipping (hoverflow : env.overflow = .skip) (levels : Nat) (ctx : Context) :
    Writes name (Item.selfReferring name first last span)
      (repeated levels first ++ repeated levels last) (.ok ())
      (enterPartial env levels name ctx) := by
  induction levels with
  | zero =>
      apply writes_nothing
      intro run
      rw [enterPartial, hoverflow]
      rfl
  | succ levels ih =>
      have hbody := ((ih.reference env span).items (writes_literals last)).literals first
      have htexts : repeated (levels + 1) first ++ repeated (levels + 1) last =
          first ++ (repeated levels first ++ repeated levels last ++ last) := by
        rw [repeated_succ, repeated_succ', String.append_assoc, String.append_assoc]
      rw [htexts]
      exact hbody.enterPartial

/-- Each level writes the first text before the reference beyond the last level ends
them all. -/
theorem writes_failing (hoverflow : env.overflow = .fail) (levels : Nat) (ctx : Context) :
    Writes name (Item.selfReferring name first last span) (repeated levels first)
      (.error (.partialOverflow name env.partialDepth)) (enterPartial env levels name ctx) := by
  induction levels with
  | zero =>
      apply writes_nothing
      intro run
      rw [enterPartial, hoverflow]
      rfl
  | succ levels ih =>
      have hbody := (ih.reference env span).items_error (Item.literals last)
      rw [repeated_succ]
      exact (hbody.literals first).enterPartial

end

/-- What a reference to a partial writes behind its declaration. -/
theorem perform_declared {env : Environment} {run : Run} {name text : String} {body : List Item}
    {result : Except RenderError Unit} {ctx : Context} (span span' : Span)
    (hopen : run.sink.IsOpen) (hquiet : run.signal.check = (.ok (), run.signal))
    (h : Writes name body text result (enterPartial env env.partialDepth name ctx)) :
    ∃ after, (ofItems env [.declaration name body span, .reference name span'] ctx).perform run =
        (result, after) ∧ after.sink = run.sink.after [text] := by
  have hpoll : run.handle .poll = (.ok (), run) := by
    simp only [Run.handle, hquiet]
  let declared := (run.handle (.declare name body)).2
  have hknows : declared.Knows name body :=
    ⟨hopen, hquiet, KeyMap.lookup_insert_self name body run.session.declared⟩
  obtain ⟨after, hperform, -, hsink⟩ :=
    (h.reference env span').last _ (hknows.leave (.item (.declaration name body span)))
  refine ⟨after, ?_, ?_⟩
  · have hdeclaration : (item env (enterPartial env env.partialDepth)
        (.declaration name body span) ctx).perform run = (.ok (), declared) := rfl
    rw [ofItems, items_cons, perform_event hpoll, perform_inside hdeclaration, hperform]
  · rw [hsink, Run.sink_leave]
    rfl

end Script

/-- Under these options only the number of nested partials is limited, and tags stand
in double braces. -/
structure Options.LimitDepthOnly (options : Options) : Prop where
  opening : options.settings.opening = Settings.default.opening
  closing : options.settings.closing = Settings.default.closing
  providers : options.providers = []
  maxSize : options.settings.maxSize = 0
  timeout : options.settings.timeout = none

namespace Template

open Text Script

variable {options : Options} {first last : String} {caller : Option Bool}

theorem delimiters_of_limitDepthOnly (h : options.LimitDepthOnly) :
    options.settings.delimiters? = some .braces := by
  rw [Settings.delimiters?, h.opening, h.closing]
  rfl

/-- A signal that nobody has cancelled and that has no time limit never stops a
render. -/
theorem check_quiet (hcaller : caller ≠ some true) (clock : Clock) :
    (Signal.new caller none clock).check = (.ok (), .new caller none clock) := by
  rcases caller with _ | _ | _
  · rfl
  · rfl
  · exact absurd rfl hcaller

/-- A render of the template writes what its reference does, to any device that takes
everything. -/
theorem render_selfReference (h : options.LimitDepthOnly)
    (hfirst : ClearOf '\x7b' first.toList) (hlast : ClearOf '\x7b' last.toList) (data : Value)
    (hcaller : caller ≠ some true) (clock : Clock) {text : String}
    {result : Except RenderError Unit}
    (hwrites : ∀ span ctx, Script.Writes "p" (Item.selfReferring "p" first last span) text result
      (enterPartial options.environment options.settings.partialDepth "p" ctx))
    (device : Device) (hroom : device.room = none) (hflush : device.flushFails = false) :
    ∃ run, Wrote options.settings.encoding device.held text (outcome result run)
      ((parse options (Document.selfReference first last)).render data device caller clock) := by
  obtain ⟨inner, outer, final, herrors, hitems⟩ :=
    Document.parse_selfReference (delimiters_of_limitDepthOnly h) hfirst hlast
  have hdocument : (parse options (Document.selfReference first last)).document =
      Document.parse options.settings [] (Document.selfReference first last) := by
    rw [parse, h.providers]
  have hvalid : (parse options (Document.selfReference first last)).isValid = true := by
    rw [isValid, hdocument, Document.isValid, herrors]
    rfl
  have hscript : (parse options (Document.selfReference first last)).script data =
      Script.ofItems options.environment
        [.declaration "p" (Item.selfReferring "p" first last inner) outer,
          .reference "p" final] (.root data) := by
    rw [script, hdocument, hitems]
    rfl
  have htime : (parse options (Document.selfReference first last)).options.settings.timeLimit =
      none := by
    change options.settings.timeout.map _ = none
    rw [h.timeout]
    rfl
  let signal := Signal.new caller none clock
  let start := (parse options (Document.selfReference first last)).start device signal
  have hopen : start.sink.IsOpen := ⟨h.maxSize, rfl, hroom⟩
  obtain ⟨after, hperform, hsink⟩ :=
    perform_declared outer final hopen (check_quiet hcaller clock)
      (hwrites inner (.root data))
  refine ⟨after, ?_⟩
  rw [render, htime, renderUnder_valid hvalid (check_quiet hcaller clock), hscript, hperform]
  have hwrote := wrote_report hsink hflush result
  rwa [String.join_cons, String.join_nil, String.append_empty] at hwrote

/-- A partial that refers to itself is rendered in exactly as many levels as partials
may be nested. If references beyond them are skipped, the render writes the first text
once for each level and then the last one as often. If they are errors, the render
fails when it has written the first text once for each level. -/
theorem selfReference_levels (h : options.LimitDepthOnly)
    (hfirst : ClearOf '\x7b' first.toList) (hlast : ClearOf '\x7b' last.toList) (data : Value)
    (hcaller : caller ≠ some true) (clock : Clock) :
    let template := parse options (Document.selfReference first last)
    let depth := options.settings.partialDepth
    let encoding := options.settings.encoding
    (options.settings.overflow = .skip →
      let text := repeated depth first ++ repeated depth last
      template.renderText data caller clock = .ok text ∧
      ∀ device : Device, device.room = none → device.flushFails = false →
        let rendering := template.render data device caller clock
        ∃ profile, rendering.result = .ok ⟨(encoding.encode text).length, false, profile⟩ ∧
          rendering.device.held = device.held ++ encoding.encode text) ∧
    (options.settings.overflow = .fail →
      template.renderText data caller clock = .error (.partialOverflow "p" depth) ∧
      ∀ device : Device, device.room = none → device.flushFails = false →
        let rendering := template.render data device caller clock
        rendering.result = .error (.partialOverflow "p" depth) ∧
          rendering.device.held = device.held ++ encoding.encode (repeated depth first)) := by
  intro template depth encoding
  constructor
  · intro hoverflow text
    have hwrote := render_selfReference h hfirst hlast data hcaller clock fun span ctx =>
      writes_skipping hoverflow depth ctx
    constructor
    · obtain ⟨run, hmemory⟩ := hwrote .memory rfl rfl
      exact hmemory.textOf template
    · intro device hroom hflush
      obtain ⟨run, hresult, hheld⟩ := hwrote device hroom hflush
      exact ⟨run.session.profile, hresult, hheld⟩
  · intro hoverflow
    have hwrote := render_selfReference h hfirst hlast data hcaller clock fun span ctx =>
      writes_failing hoverflow depth ctx
    constructor
    · obtain ⟨run, hmemory⟩ := hwrote .memory rfl rfl
      exact hmemory.textOf template
    · intro device hroom hflush
      obtain ⟨run, hresult, hheld⟩ := hwrote device hroom hflush
      exact ⟨hresult, hheld⟩

/-- With three levels, and with none. -/
theorem selfReference_three :
    let options (depth : Nat) (overflow : OverflowPolicy) : Options :=
      { Options.default with
        settings := { Settings.default with partialDepth := depth, overflow } }
    let template (depth : Nat) (overflow : OverflowPolicy) :=
      parse (options depth overflow) (Document.selfReference "a" "b")
    let clock := Clock.still
    (∀ depth overflow, (options depth overflow).LimitDepthOnly) ∧
    ClearOf '\x7b' "a".toList ∧ ClearOf '\x7b' "b".toList ∧ none ≠ some true ∧
    (template 3 .skip).renderText .null none clock = .ok "aaabbb" ∧
    (template 3 .fail).renderText .null none clock = .error (.partialOverflow "p" 3) ∧
    ((template 3 .fail).render .null .memory none clock).device.held.toList =
      Encoding.utf8.encode "aaa" ∧
    (template 0 .skip).renderText .null none clock = .ok "" := by
  intro options template clock
  have hoptions : ∀ depth overflow, (options depth overflow).LimitDepthOnly :=
    fun depth overflow => ⟨rfl, rfl, rfl, rfl, rfl⟩
  have hfirst : ClearOf '\x7b' "a".toList := by decide
  have hlast : ClearOf '\x7b' "b".toList := by decide
  have hcaller : none ≠ some true := by decide
  have hlevels (depth : Nat) (overflow : OverflowPolicy) :=
    selfReference_levels (hoptions depth overflow) hfirst hlast .null hcaller clock
  obtain ⟨herror, hdevice⟩ := (hlevels 3 .fail).2 rfl
  obtain ⟨-, hheld⟩ := hdevice .memory rfl rfl
  refine ⟨hoptions, hfirst, hlast, hcaller, ((hlevels 3 .skip).1 rfl).1, herror, ?_,
    ((hlevels 0 .skip).1 rfl).1⟩
  rw [hheld, Device.toList_memory]
  rfl

end Template

end Stencil
