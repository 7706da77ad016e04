import Stencil.Proofs.Render.Lockstep
import Stencil.Proofs.Render.Sections

/-!
What is recorded of a render. Recording changes nothing that the render does: runs of
one script that differ in what they record stay alike, and look up the same. The record
of the paths that found nothing has one entry for each lookup that did, in order.
-/

namespace Stencil

/-- The records that lookups leave: one for each that found nothing. -/
def unresolvedOf (looks : List Look) : List (String × Expectation) :=
  (looks.filter (·.found.isNone)).map fun look => (look.path.text, look.expected)

theorem unresolvedOf_append (first second : List Look) :
    unresolvedOf (first ++ second) = unresolvedOf first ++ unresolvedOf second := by
  rw [unresolvedOf, List.filter_append, List.map_append]
  rfl

namespace Run

variable {run run' : Run}

/-- No step depends on what is recorded. -/
theorem Alike.handle (h : run.Alike run') (e : Event) :
    (run'.handle e).1 = (run.handle e).1 ∧ (run.handle e).2.Alike (run'.handle e).2 := by
  obtain ⟨sink, signal, ⟨stack, declared, profile⟩, unresolved⟩ := run
  obtain ⟨sink', signal', ⟨stack', declared', profile'⟩, unresolved'⟩ := run'
  obtain ⟨rfl, rfl, rfl, rfl⟩ := h
  cases e <;> exact ⟨rfl, rfl, rfl, rfl, rfl⟩

theorem Alike.enter (h : run.Alike run') (bracket : Bracket) :
    (run.enter bracket).Alike (run'.enter bracket) := by
  cases bracket with
  | item rendered => exact h
  | reference name => exact ⟨h.sink, h.signal, congrArg (· ++ [name]) h.stack, h.declared⟩

theorem Alike.leave (h : run.Alike run') (bracket : Bracket) :
    (run.leave bracket).Alike (run'.leave bracket) := by
  cases bracket with
  | item rendered => exact h.leaveItem rendered rendered
  | reference name => exact ⟨h.sink, h.signal, congrArg List.dropLast h.stack, h.declared⟩

/-- Runs that are alike never part. -/
theorem lockstep_alike (error : RenderError) : Lockstep Alike (fun _ _ => False) error where
  declared h := h.declared
  stack h := h.stack
  handle e h := .inl (h.handle e)
  enter bracket h := h.enter bracket
  leave bracket h := h.leave bracket
  handleOn _ h := h
  enterOn _ h := h
  leaveOn _ h := h
  leaveStopped _ h := h

theorem Alike.perform (h : run.Alike run') (script : Script) :
    (script.perform run').1 = (script.perform run).1 ∧
      (script.perform run).2.Alike (script.perform run').2 := by
  rcases (lockstep_alike .cancelled).perform script (fun _ _ hnever => hnever.elim) h with
    hsame | ⟨-, hnever⟩
  · exact hsame
  · exact hnever.elim

/-- Runs that are alike have one trace. -/
theorem Alike.trace (h : run.Alike run') (script : Script) (item : Option Item) :
    script.trace item run' = script.trace item run := by
  induction script generalizing item run run' with
  | done => rfl
  | fail error => rfl
  | event e next ih =>
      obtain ⟨hresult, hafter⟩ := h.handle e
      rcases hhandle : run.handle e with ⟨result, after⟩
      rcases hhandle' : run'.handle e with ⟨result', after'⟩
      rw [hhandle, hhandle'] at hresult hafter
      obtain rfl : result' = result := hresult
      cases result' with
      | error error => rw [Script.trace_event_error hhandle, Script.trace_event_error hhandle']
      | ok => rw [Script.trace_event hhandle, Script.trace_event hhandle', ih () hafter item]
  | inside bracket body next ihbody ih =>
      obtain ⟨hresult, hafter⟩ := (h.enter bracket).perform body
      have hbody := ihbody (h.enter bracket) (bracket.item?.or item)
      rcases hperform : body.perform (run.enter bracket) with ⟨result, after⟩
      rcases hperform' : body.perform (run'.enter bracket) with ⟨result', after'⟩
      rw [hperform, hperform'] at hresult hafter
      obtain rfl : result' = result := hresult
      cases result' with
      | error error =>
          rw [Script.trace_inside_error hperform, Script.trace_inside_error hperform', hbody]
      | ok =>
          rw [Script.trace_inside hperform, Script.trace_inside hperform', hbody,
            ih () (hafter.leave bracket) item]
  | attempt body next ihbody ih =>
      obtain ⟨hresult, hafter⟩ := h.perform body
      rw [Script.trace_attempt, Script.trace_attempt, hresult, ihbody h item, ih _ hafter item]
  | declared name next ih =>
      rw [Script.trace, Script.trace, Session.declared?, Session.declared?, h.declared]
      exact ih _ h item
  | partials next ih =>
      rw [Script.trace, Script.trace, h.stack]
      exact ih _ h item

/-- What the lookups of some moments add to what is recorded. -/
def recording (unresolved : Option (List (String × Expectation))) (moments : List Moment) :
    Option (List (String × Expectation)) :=
  unresolved.map (· ++ unresolvedOf (looksOf moments))

theorem recording_nil (unresolved : Option (List (String × Expectation))) :
    recording unresolved [] = unresolved := by
  cases unresolved with
  | none => rfl
  | some records => exact congrArg some (List.append_nil records)

theorem recording_append (unresolved : Option (List (String × Expectation)))
    (first second : List Moment) :
    recording unresolved (first ++ second) = recording (recording unresolved first) second := by
  cases unresolved with
  | none => rfl
  | some records =>
      simp only [recording, Option.map_some, looksOf_append, unresolvedOf_append,
        List.append_assoc]

theorem unresolved_handle (run : Run) (e : Event) (item : Option Item) :
    (run.handle e).2.unresolved =
      recording run.unresolved [⟨item, e, (run.handle e).1⟩] := by
  cases e with
  | look path expected found => cases found <;> rfl
  | poll | write | cancel | declare => exact (recording_nil run.unresolved).symm

/-- A run records what its trace looked up and did not find. -/
theorem unresolved_perform (script : Script) (item : Option Item) (run : Run) :
    (script.perform run).2.unresolved = recording run.unresolved (script.trace item run) := by
  have hkept := Script.perform_induction (R := fun run moments last =>
    last.unresolved = recording run.unresolved moments) ?_ ?_ ?_ ?_ ?_ script item run
  · exact hkept
  · exact fun run => (recording_nil run.unresolved).symm
  · exact unresolved_handle
  · intro run bracket
    rw [recording_nil]
    cases bracket <;> rfl
  · intro run bracket
    rw [recording_nil]
    cases bracket <;> rfl
  · intro run middle last first second hfirst hsecond
    rw [hsecond, hfirst, recording_append]

end Run

namespace Script

/-- What a script looks up in a run, in order. -/
def looks (script : Script) (run : Run) : List Look :=
  looksOf (script.trace none run)

/-- What is looked up does not depend on the item that a script belongs to. -/
theorem looksOf_trace_owner (script : Script) (item item' : Option Item) (run : Run) :
    looksOf (script.trace item run) = looksOf (script.trace item' run) := by
  induction script generalizing item item' run with
  | done => rfl
  | fail error => rfl
  | event e next ih =>
      rcases hhandle : run.handle e with ⟨error | _, after⟩
      · rw [trace_event_error hhandle, trace_event_error hhandle, looksOf_cons, looksOf_cons]
      · rw [trace_event hhandle, trace_event hhandle, looksOf_cons, looksOf_cons,
          ih () item item' after]
  | inside bracket body next ihbody ih =>
      have hbody := ihbody (bracket.item?.or item) (bracket.item?.or item') (run.enter bracket)
      rcases hperform : body.perform (run.enter bracket) with ⟨error | _, after⟩
      · rw [trace_inside_error hperform, trace_inside_error hperform, hbody]
      · rw [trace_inside hperform, trace_inside hperform, looksOf_append, looksOf_append, hbody,
          ih () item item' (after.leave bracket)]
  | attempt body next ihbody ih =>
      rw [trace_attempt, trace_attempt, looksOf_append, looksOf_append, ihbody item item' run,
        ih _ item item' _]
  | declared name next ih => exact ih _ item item' run
  | partials next ih => exact ih _ item item' run

theorem looks_ofEvent (e : Event) (run : Run) : (ofEvent e).looks run = e.look?.toList := by
  rw [looks, ofEvent]
  rcases hhandle : run.handle e with ⟨error | _, after⟩
  · rw [trace_event_error hhandle, looksOf_cons]
    exact List.append_nil _
  · rw [trace_event hhandle, looksOf_cons]
    exact List.append_nil _

/-- What is looked up inside a bracket, and after it. -/
theorem looks_inside (bracket : Bracket) (body : Script) (next : Unit → Script) (run : Run) :
    (inside bracket body next).looks run = body.looks (run.enter bracket) ++
      match body.perform (run.enter bracket) with
      | (.ok (), run) => (next ()).looks (run.leave bracket)
      | (.error _, _) => [] := by
  have howner := looksOf_trace_owner body (bracket.item?.or none) none (run.enter bracket)
  rw [looks, trace, looksOf_append, howner]
  congr 1
  rcases body.perform (run.enter bracket) with ⟨error | _, after⟩ <;> rfl

/-- What an evaluation looks up, and then what is done with its value, if it has one. -/
def looksThen {α : Type} (evaluation : Evaluation α) (next : α → Script) (run : Run) : List Look :=
  evaluation.looks ++ match evaluation.result with
    | .ok a => (next a).looks (run.after evaluation.events)
    | .error _ => []

theorem looks_script {α : Type} {env : Environment} {ctx : Context} {steps : List EvaluationStep}
    {evaluation : Evaluation α} (h : evaluation.Follows env ctx steps) (next : α → Script)
    (run : Run) : (evaluation.script next).looks run = looksThen evaluation next run := by
  rw [looks, Evaluation.script, trace_afterEvents h.handle_ok, looksOf_append]
  congr 1
  · rw [looksOf, List.filterMap_map]
    rfl
  · cases evaluation.result <;> rfl

end Script

/-- What a finished render reports, without what it recorded. -/
def Output.counts (output : Output) : Nat × Bool :=
  (output.bytesWritten, output.limitReached)

/-- Two renderings with the same result, bytes and signal. What they recorded may
differ. -/
structure Rendering.SameEffect (rendering rendering' : Rendering) : Prop where
  result : rendering'.result.map Output.counts = rendering.result.map Output.counts
  device : rendering'.device = rendering.device
  signal : rendering'.signal = rendering.signal

/-- The options with other records. -/
def Options.observing (options : Options) (profiles observes : Bool) : Options :=
  { options with settings := { options.settings with profiles }, observes }

namespace Template

/-- The template rendered with other records. -/
def observing (template : Template) (profiles observes : Bool) : Template :=
  { template with options := template.options.observing profiles observes }

/-- What is recorded does not matter to the parser. -/
theorem parse_observing (options : Options) (source : String) (profiles observes : Bool) :
    parse (options.observing profiles observes) source =
      (parse options source).observing profiles observes :=
  rfl

variable {template : Template} {data : Value} {device : Device} {signal signal' : Signal}

theorem finish_of_alike {run run' : Run} (h : run.Alike run') (result : Except RenderError Unit) :
    (finish result run').map Output.counts = (finish result run).map Output.counts := by
  have hflushed : (finish (.ok ()) run').map Output.counts =
      (finish (.ok ()) run).map Output.counts := by
    simp only [finish, h.sink]
    cases run.sink.flush <;> rfl
  rcases result with error | _
  · cases error with
    | outputLimit limit => exact hflushed
    | _ => rfl
  · exact hflushed

theorem sameEffect_report {done done' : Except RenderError Unit × Run}
    (hresult : done'.1 = done.1) (halike : done.2.Alike done'.2) :
    (report done).SameEffect (report done') := by
  refine ⟨?_, congrArg Sink.device halike.sink, halike.signal⟩
  rw [report, report, hresult]
  exact finish_of_alike halike done.1

theorem alike_start (template : Template) (device : Device) (signal : Signal)
    (profiles observes : Bool) :
    (template.start device signal).Alike
      ((template.observing profiles observes).start device signal) :=
  ⟨rfl, rfl, rfl, rfl⟩

theorem renderUnder_observing (template : Template) (profiles observes : Bool) (data : Value)
    (device : Device) (signal : Signal) :
    (template.renderUnder data device signal).SameEffect
      ((template.observing profiles observes).renderUnder data device signal) := by
  cases hvalid : template.isValid with
  | false =>
      have hvalid' : (template.observing profiles observes).isValid = false := hvalid
      rw [renderUnder_invalid hvalid, renderUnder_invalid hvalid']
      exact ⟨rfl, rfl, rfl⟩
  | true =>
      have hvalid' : (template.observing profiles observes).isValid = true := hvalid
      rcases hpoll : signal.check with ⟨error | _, signal'⟩
      · rw [renderUnder_stopped hvalid hpoll, renderUnder_stopped hvalid' hpoll]
        exact ⟨rfl, rfl, rfl⟩
      · obtain ⟨hresult, halike⟩ :=
          (template.alike_start device signal' profiles observes).perform (template.script data)
        rw [renderUnder_valid hvalid hpoll, renderUnder_valid hvalid' hpoll]
        exact sameEffect_report hresult halike

theorem trace_observing (template : Template) (profiles observes : Bool) (data : Value)
    (device : Device) (signal : Signal) :
    (template.observing profiles observes).trace data device signal =
      template.trace data device signal := by
  cases hvalid : template.isValid with
  | false =>
      have hvalid' : (template.observing profiles observes).isValid = false := hvalid
      rw [trace_invalid hvalid, trace_invalid hvalid']
  | true =>
      have hvalid' : (template.observing profiles observes).isValid = true := hvalid
      rcases hpoll : signal.check with ⟨error | _, signal'⟩
      · rw [trace_stopped hvalid hpoll, trace_stopped hvalid' hpoll]
      · rw [trace_valid hvalid hpoll, trace_valid hvalid' hpoll]
        exact (template.alike_start device signal' profiles observes).trace _ none

/-- The text of what a render wrote does not depend on what it recorded. -/
theorem textOf_of_sameEffect {rendering rendering' : Rendering} (profiles observes : Bool)
    (h : rendering.SameEffect rendering') :
    (template.observing profiles observes).textOf rendering' = template.textOf rendering := by
  have hresult := h.result
  unfold textOf
  rw [h.device]
  rcases hfirst : rendering.result with error | output <;>
    rcases hsecond : rendering'.result with error' | output' <;> rw [hfirst, hsecond] at hresult
  · obtain rfl : error' = error := Except.error.inj hresult
    rfl
  · cases hresult
  · cases hresult
  · obtain ⟨-, hreached⟩ := Prod.mk.inj (Except.ok.inj hresult)
    change (if output'.limitReached = true then _ else _) = _
    rw [hreached]
    rfl

/-- The record of a render has an entry for each of its lookups that found nothing. -/
theorem unresolved_observing (template : Template) (profiles : Bool) (data : Value)
    (device : Device) (signal : Signal) :
    ((template.observing profiles true).renderUnder data device signal).unresolved =
      unresolvedOf (looksOf (template.trace data device signal)) := by
  rw [← template.trace_observing profiles true]
  cases hvalid : (template.observing profiles true).isValid with
  | false =>
      rw [renderUnder_invalid hvalid, trace_invalid hvalid]
      rfl
  | true =>
      rcases hpoll : signal.check with ⟨error | _, signal'⟩
      · rw [renderUnder_stopped hvalid hpoll, trace_stopped hvalid hpoll]
        rfl
      · rw [renderUnder_valid hvalid hpoll, trace_valid hvalid hpoll, report,
          Run.unresolved_perform _ none]
        rfl

end Template

namespace Script

/-- The items that a reference to a partial renders in a run: those declared under its
name, or those of a valid document of the host. -/
def referred? (env : Environment) (run : Run) (name : String) : Option (List Item) :=
  (run.session.declared? name).or <| (env.partials name).bind fun document =>
    if document.isValid then some document.items else none

/-- The order in which items evaluate their expressions, and each of them once. -/
structure EvaluatesInOrder (env : Environment) (enter : String → Body) : Prop where
  /-- An expression is evaluated by its plan. -/
  expression : ∀ ctx expected expression,
    (Evaluation.ofExpression env ctx expected expression).Follows env ctx
      (expression.plan expected)
  /-- So it looks up what its plan looks up, as far as it gets. -/
  lookups : ∀ ctx expected expression,
    let evaluation := Evaluation.ofExpression env ctx expected expression
    let looks := looksOfSteps env ctx (expression.plan expected)
    evaluation.looks <+: looks ∧
      ∀ scope, evaluation.result = .ok scope → evaluation.looks = looks
  output : ∀ expression escape span ctx run,
    (item env enter (.output expression escape span) ctx).looks run =
      (Evaluation.ofExpression env ctx .value expression).looks
  /-- A section evaluates its expression before it renders a branch. -/
  block : ∀ kind expression body otherwise span ctx run,
    (item env enter (.block kind expression body otherwise span) ctx).looks run =
      looksThen (Evaluation.ofExpression env ctx (expectation kind) expression)
        (branch kind (items env enter body) (items env enter otherwise) ctx) run
  /-- Items are rendered one after another. -/
  items : ∀ first rest ctx run,
    (items env enter (first :: rest) ctx).looks run =
      match run.handle .poll with
      | (.error _, _) => []
      | (.ok (), run) => (item env enter first ctx).looks run ++
          match (item env enter first ctx).perform run with
          | (.ok (), run) => (items env enter rest ctx).looks (run.leave (.item first))
          | (.error _, _) => []
  /-- A reference renders the items that it refers to. -/
  reference : ∀ levels name ctx run,
    (enterPartial env (levels + 1) name ctx).looks run =
      match referred? env run name with
      | some body => (Script.items env (enterPartial env levels) body ctx).looks
          (run.enter (.reference name))
      | none => []

theorem looks_output (env : Environment) (expression : Expression) (escape : Bool)
    (ctx : Context) (run : Run) :
    (output env expression escape ctx).looks run =
      (Evaluation.ofExpression env ctx .value expression).looks := by
  rw [output, looks_script (Evaluation.follows_ofExpression .value expression), looksThen]
  cases (Evaluation.ofExpression env ctx .value expression).result with
  | error error => exact List.append_nil _
  | ok scope =>
      simp only
      rw [write, looks_ofEvent]
      exact List.append_nil _

theorem looks_items (env : Environment) (enter : String → Body) (first : Item)
    (rest : List Item) (ctx : Context) (run : Run) :
    (items env enter (first :: rest) ctx).looks run =
      match run.handle .poll with
      | (.error _, _) => []
      | (.ok (), run) => (item env enter first ctx).looks run ++
          match (item env enter first ctx).perform run with
          | (.ok (), run) => (items env enter rest ctx).looks (run.leave (.item first))
          | (.error _, _) => [] := by
  rw [items_cons]
  rcases hpoll : run.handle .poll with ⟨error | _, polled⟩
  · rw [looks, trace_event_error hpoll]
    rfl
  · rw [looks, trace_event hpoll]
    exact looks_inside (.item first) _ _ polled

theorem looks_enterPartial (env : Environment) (levels : Nat) (name : String) (ctx : Context)
    (run : Run) :
    (enterPartial env (levels + 1) name ctx).looks run =
      match referred? env run name with
      | some body => (items env (enterPartial env levels) body ctx).looks
          (run.enter (.reference name))
      | none => [] := by
  have hentered (body : List Item) :
      (inside (.reference name) (items env (enterPartial env levels) body ctx)
        fun _ => done).looks run =
          (items env (enterPartial env levels) body ctx).looks (run.enter (.reference name)) := by
    rw [looks_inside]
    rcases perform _ _ with ⟨error | _, after⟩ <;> exact List.append_nil _
  rw [enterPartial, partialBody, looks, trace]
  unfold referred?
  cases run.session.declared? name with
  | some body => exact hentered body
  | none =>
      cases env.partials name with
      | none => rfl
      | some document =>
          cases hvalid : document.isValid with
          | false => simp [hvalid, trace, looksOf]
          | true =>
              simp only [hvalid, Option.none_or, Option.bind_some, if_true]
              exact hentered document.items

theorem evaluatesInOrder (env : Environment) (enter : String → Body) :
    EvaluatesInOrder env enter where
  expression ctx expected expression := Evaluation.follows_ofExpression expected expression
  lookups ctx expected expression :=
    (Evaluation.follows_ofExpression expected expression).looks
  output expression escape span ctx run := looks_output env expression escape ctx run
  block kind expression body otherwise span ctx run := by
    rw [item_block, Script.block,
      looks_script (Evaluation.follows_ofExpression (expectation kind) expression)]
  items first rest ctx run := looks_items env enter first rest ctx run
  reference levels name ctx run := looks_enterPartial env levels name ctx run

end Script

namespace Template

/-- What is recorded of a render does not change what it does, and the record of the paths
that found nothing has one entry for each lookup that did, in the order in which the
expressions of the template are evaluated. -/
theorem observation_is_inert (template : Template) (data : Value) (profiles observes : Bool) :
    (∀ source, parse (template.options.observing profiles observes) source =
      (parse template.options source).observing profiles observes) ∧
    (∀ device signal, (template.renderUnder data device signal).SameEffect
      ((template.observing profiles observes).renderUnder data device signal)) ∧
    (∀ opening caller clock, (template.renderOpening data opening caller clock).SameEffect
      ((template.observing profiles observes).renderOpening data opening caller clock)) ∧
    (∀ caller clock, (template.observing profiles observes).renderText data caller clock =
      template.renderText data caller clock) ∧
    (∀ device signal,
      ((template.observing profiles true).renderUnder data device signal).unresolved =
        unresolvedOf (looksOf (template.trace data device signal))) ∧
    ∀ enter, Script.EvaluatesInOrder template.options.environment enter := by
  refine ⟨fun source => parse_observing template.options source profiles observes,
    template.renderUnder_observing profiles observes data, ?_, ?_,
    template.unresolved_observing profiles data, Script.evaluatesInOrder _⟩
  · intro opening caller clock
    have hrender (device : Device) := template.renderUnder_observing profiles observes data device
      (.new caller template.options.settings.timeLimit clock)
    have hvalid : (template.observing profiles observes).isValid = template.isValid := rfl
    unfold renderOpening
    rw [hvalid]
    cases template.isValid with
    | false => exact ⟨rfl, rfl, rfl⟩
    | true =>
        cases opening () with
        | error cause => exact ⟨rfl, rfl, rfl⟩
        | ok device => exact hrender device
  · intro caller clock
    exact textOf_of_sameEffect profiles observes
      (template.renderUnder_observing profiles observes data .memory _)

/-- A name that is missing is recorded once, and one that is null is not. -/
theorem greeting_records_missing_name :
    let observed := greeting.observing true true
    (observed.renderUnder (.map []) .memory .never).unresolved = [("name", .value)] ∧
      (observed.renderUnder (.map [("name", .null)]) .memory .never).unresolved = [] := by
  intro observed
  constructor
  · rw [(observation_is_inert greeting (.map []) true true).2.2.2.2.1 .memory .never]
    rfl
  · rw [(observation_is_inert greeting (.map [("name", .null)]) true true).2.2.2.2.1 .memory .never]
    rfl

end Template

end Stencil
