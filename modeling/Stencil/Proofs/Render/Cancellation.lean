import Mathlib.Data.List.TakeWhile
import Stencil.Proofs.Render.Attempts
import Stencil.Proofs.Render.Polling

/-!
Cancellation stops a render at the next item. A render that listens to the caller's
token does what it would do otherwise, up to the first poll after a formatter
cancelled the token; and what it does before that poll is work of the item in which
the formatter was called.
-/

namespace Stencil

def Event.isCancel : Event → Bool
  | cancel => true
  | poll | write _ | look .. | declare .. => false

/-- What a render does that listens to the caller's token, when otherwise it would
do this. It stops at the first poll after a cancel, if there is one. -/
def stopped? : Bool → List Moment → Option (List Moment)
  | _, [] => none
  | cancelled, moment :: rest =>
      if cancelled && moment.event.isPoll then some [⟨moment.item, .poll, .error .cancelled⟩]
      else (stopped? (cancelled || moment.event.isCancel) rest).map (moment :: ·)

theorem stopped?_cons {cancelled : Bool} {moment : Moment} {rest : List Moment}
    (h : (cancelled && moment.event.isPoll) = false) :
    stopped? cancelled (moment :: rest) =
      (stopped? (cancelled || moment.event.isCancel) rest).map (moment :: ·) := by
  rw [stopped?, h]
  rfl

theorem stopped?_append (cancelled : Bool) (first second : List Moment) :
    stopped? cancelled (first ++ second) = (stopped? cancelled first).or
      ((stopped? (cancelled || first.any (·.event.isCancel)) second).map (first ++ ·)) := by
  induction first generalizing cancelled with
  | nil => simp [stopped?]
  | cons moment first ih =>
      rw [List.cons_append, stopped?, stopped?, ih]
      split
      · rfl
      · rw [Option.map_or, Option.map_map, List.any_cons, Bool.or_assoc]
        rfl

theorem ne_poll_of_mem_untilPoll {moment : Moment} {moments : List Moment}
    (h : moment ∈ untilPoll moments) : moment.event ≠ .poll := by
  have hpoll := List.mem_takeWhile_imp h
  intro hevent
  rw [hevent] at hpoll
  cases hpoll

/-- After a cancel a render stops at the very next poll. -/
theorem stopped?_true (moments : List Moment) :
    (∀ moment ∈ moments, moment.event ≠ .poll) ∧ stopped? true moments = none ∧
        untilPoll moments = moments ∨
      (∃ moment ∈ moments, moment.event = .poll) ∧ ∃ asking, stopped? true moments =
        some (untilPoll moments ++ [⟨asking, .poll, .error .cancelled⟩]) := by
  induction moments with
  | nil => exact .inl ⟨List.forall_mem_nil _, rfl, rfl⟩
  | cons moment rest ih =>
      by_cases hpoll : moment.event = .poll
      · refine .inr ⟨⟨moment, List.mem_cons_self .., hpoll⟩, moment.item, ?_⟩
        simp [stopped?, untilPoll, hpoll, Event.isPoll]
      · have hwork : moment.event.isPoll = false := by
          cases hevent : moment.event with
          | poll => exact absurd hevent hpoll
          | write | look | cancel | declare => rfl
        rw [stopped?_cons (by rw [hwork]; rfl), Bool.true_or, untilPoll_cons hwork]
        rcases ih with ⟨hnone, hstop, huntil⟩ | ⟨⟨polled, hmem, hpolled⟩, asking, hstop⟩
        · exact .inl ⟨List.forall_mem_cons.mpr ⟨hpoll, hnone⟩, by rw [hstop]; rfl, by rw [huntil]⟩
        · exact .inr ⟨⟨polled, List.mem_cons_of_mem _ hmem, hpolled⟩, asking, by rw [hstop]; rfl⟩

/-- What comes after the first cancel is what would come otherwise, until it is
stopped. -/
theorem exists_rest_of_stopped? {free before after : List Moment} {item : Option Item}
    {result : Except RenderError Unit} (hfirst : ∀ moment ∈ before, moment.event ≠ .cancel)
    (h : (stopped? false free).getD free = before ++ ⟨item, .cancel, result⟩ :: after) :
    ∃ rest, free = before ++ ⟨item, .cancel, result⟩ :: rest ∧
      (stopped? false free).isSome = (stopped? true rest).isSome ∧
      after = (stopped? true rest).getD rest := by
  induction before generalizing free with
  | nil =>
      cases free with
      | nil => cases h
      | cons moment rest =>
          rw [stopped?_cons rfl, Option.getD_map, List.nil_append, List.cons.injEq] at h
          obtain ⟨rfl, rfl⟩ := h
          exact ⟨rest, rfl, by rw [stopped?_cons rfl, Option.isSome_map]; rfl, rfl⟩
  | cons first before ih =>
      obtain ⟨hfirst, hbefore⟩ := List.forall_mem_cons.mp hfirst
      cases free with
      | nil => cases h
      | cons moment free =>
          rw [stopped?_cons rfl, Option.getD_map, List.cons_append, List.cons.injEq] at h
          obtain ⟨rfl, h⟩ := h
          have hcancel : moment.event.isCancel = false := by
            cases hevent : moment.event with
            | cancel => exact absurd hevent hfirst
            | poll | write | look | declare => rfl
          rw [hcancel, Bool.or_false] at h
          obtain ⟨rest, hfree, hsome, hafter⟩ := ih hbefore h
          refine ⟨rest, by rw [hfree, List.cons_append], ?_, hafter⟩
          rw [stopped?_cons rfl, Option.isSome_map, hcancel, Bool.or_false, hsome]

/-- If an item is finished before the next poll, a stopped render does nothing else,
but for the poll that is refused. -/
theorem finishes_stopped {env : Environment} {item : Option Item} {rest : List Moment}
    (h : Finishes env item rest) {after : List Moment}
    (hafter : after = (stopped? true rest).getD rest) :
    (∀ moment ∈ after, moment.event = .poll → moment.result = .error .cancelled) ∧
    (∀ moment ∈ after, moment.event ≠ .poll →
      moment.item = item ∧ moment.event.IsWorkOf env item) ∧
    (handedTexts after).length ≤ 1 := by
  obtain ⟨hwork, htext⟩ := h
  rcases stopped?_true rest with ⟨hnone, hstop, huntil⟩ | ⟨-, asking, hstop⟩
  · rw [hstop, Option.getD_none] at hafter
    subst hafter
    rw [huntil] at hwork htext
    exact ⟨fun moment hmem hpoll => absurd hpoll (hnone moment hmem),
      fun moment hmem _ => hwork moment hmem, htext⟩
  · rw [hstop, Option.getD_some] at hafter
    subst hafter
    refine ⟨?_, ?_, ?_⟩
    · intro moment hmem hpoll
      rcases List.mem_append.mp hmem with hmem | hmem
      · exact absurd hpoll (ne_poll_of_mem_untilPoll hmem)
      · rw [List.mem_singleton.mp hmem]
    · intro moment hmem hpoll
      rcases List.mem_append.mp hmem with hmem | hmem
      · exact hwork moment hmem
      · exact absurd (by rw [List.mem_singleton.mp hmem]) hpoll
    · rw [handedTexts_append, List.length_append]
      exact htext

namespace Run

/-- The run when it listens to the caller's token. -/
def listening (run : Run) : Run :=
  { run with signal := { run.signal with listens := true } }

/-- Nothing ever stops the run: it does not listen and has no time limit. -/
structure IsDeaf (run : Run) : Prop where
  listens : run.signal.listens = false
  own : run.signal.ownCancelled = false
  timeLimit : run.signal.timeLimit = none

variable {run : Run}

theorem listening_enter (run : Run) (bracket : Bracket) :
    run.listening.enter bracket = (run.enter bracket).listening := by
  cases bracket <;> rfl

theorem listening_leave (run : Run) (bracket : Bracket) :
    run.listening.leave bracket = (run.leave bracket).listening := by
  cases bracket <;> rfl

@[simp] theorem signal_enter (run : Run) (bracket : Bracket) :
    (run.enter bracket).signal = run.signal := by
  cases bracket <;> rfl

@[simp] theorem signal_leave (run : Run) (bracket : Bracket) :
    (run.leave bracket).signal = run.signal := by
  cases bracket <;> rfl

theorem IsDeaf.of_signal_eq {run' : Run} (h : run.IsDeaf) (hsignal : run'.signal = run.signal) :
    run'.IsDeaf := by
  obtain ⟨hlistens, hown, htime⟩ := h
  rw [← hsignal] at hlistens hown htime
  exact ⟨hlistens, hown, htime⟩

theorem IsDeaf.handle_poll (h : run.IsDeaf) : run.handle .poll = (.ok (), run) := by
  simp [handle, Signal.check, Signal.poll, Signal.isCancelled, h.listens, h.own, h.timeLimit]

/-- A run that listens polls as one that does not, until the token is cancelled. -/
theorem IsDeaf.handle_poll_listening (h : run.IsDeaf) : run.listening.handle .poll =
    (if run.signal.callerCancelled then .error .cancelled else .ok (), run.listening) := by
  cases hcancelled : run.signal.callerCancelled <;>
    simp [handle, listening, Signal.check, Signal.poll, Signal.isCancelled, h.own, h.timeLimit,
      hcancelled]

theorem handle_listening (run : Run) {e : Event} (h : e.isPoll = false) :
    run.listening.handle e = ((run.handle e).1, (run.handle e).2.listening) := by
  cases e with
  | poll => cases h
  | write | look | cancel | declare => rfl

theorem IsDeaf.handle (h : run.IsDeaf) (e : Event) :
    (run.handle e).2.IsDeaf ∧ (run.handle e).2.signal.callerCancelled =
      (run.signal.callerCancelled || e.isCancel) := by
  cases e with
  | poll =>
      rw [h.handle_poll]
      exact ⟨h, (Bool.or_false _).symm⟩
  | cancel => exact ⟨⟨h.listens, h.own, h.timeLimit⟩, (Bool.or_true _).symm⟩
  | write | look | declare => exact ⟨⟨h.listens, h.own, h.timeLimit⟩, (Bool.or_false _).symm⟩

end Run

namespace Script

variable {run : Run}

/-- A run that does not listen goes on like that, and keeps in mind whether the token
was cancelled. -/
theorem deaf_perform (h : run.IsDeaf) (script : Script) (item : Option Item) :
    (script.perform run).2.IsDeaf ∧ (script.perform run).2.signal.callerCancelled =
      (run.signal.callerCancelled || (script.trace item run).any (·.event.isCancel)) := by
  have hkept := perform_induction
    (R := fun run moments last => run.IsDeaf → last.IsDeaf ∧ last.signal.callerCancelled =
      (run.signal.callerCancelled || moments.any (·.event.isCancel)))
    ?_ ?_ ?_ ?_ ?_ script item run
  · exact hkept h
  · intro run h
    exact ⟨h, (Bool.or_false _).symm⟩
  · intro run e item h
    simpa using h.handle e
  · intro run bracket h
    exact ⟨h.of_signal_eq (run.signal_enter bracket), by simp⟩
  · intro run bracket h
    exact ⟨h.of_signal_eq (run.signal_leave bracket), by simp⟩
  · intro run middle last first second hfirst hsecond h
    obtain ⟨hmiddle, hcancelled⟩ := hfirst h
    obtain ⟨hlast, hcancelled'⟩ := hsecond hmiddle
    exact ⟨hlast, by rw [hcancelled', hcancelled, List.any_append, Bool.or_assoc]⟩

/-- How a run goes on if it listens to the caller's token: alike, if nothing would be
polled after a cancel, and else up to the first such poll. -/
structure Heeds (script : Script) (item : Option Item) (run : Run) : Prop where
  goesOn : stopped? run.signal.callerCancelled (script.trace item run) = none →
    script.trace item run.listening = script.trace item run ∧
      script.perform run.listening = ((script.perform run).1, (script.perform run).2.listening)
  stops {moments : List Moment} :
    stopped? run.signal.callerCancelled (script.trace item run) = some moments →
    script.trace item run.listening = moments ∧
      (script.perform run.listening).1 = .error .cancelled

section

variable {script : Script} {item : Option Item}

theorem Heeds.of_none
    (hnone : stopped? run.signal.callerCancelled (script.trace item run) = none)
    (htrace : script.trace item run.listening = script.trace item run)
    (hperform : script.perform run.listening =
      ((script.perform run).1, (script.perform run).2.listening)) : Heeds script item run := by
  refine ⟨fun _ => ⟨htrace, hperform⟩, ?_⟩
  intro moments hsome
  rw [hnone] at hsome
  cases hsome

theorem Heeds.of_some {moments : List Moment}
    (hsome : stopped? run.signal.callerCancelled (script.trace item run) = some moments)
    (htrace : script.trace item run.listening = moments)
    (hperform : (script.perform run.listening).1 = .error .cancelled) :
    Heeds script item run := by
  constructor
  · intro hnone
    rw [hsome] at hnone
    cases hnone
  · intro moments' hsome'
    rw [hsome] at hsome'
    cases hsome'
    exact ⟨htrace, hperform⟩

/-- A run that does some moments, at none of which it would be stopped, heeds the
token if it does so from there on. -/
theorem Heeds.of_rest {front : List Moment} {rest : Script} {after : Run}
    (hfront : stopped? run.signal.callerCancelled front = none)
    (hcancelled : after.signal.callerCancelled =
      (run.signal.callerCancelled || front.any (·.event.isCancel)))
    (htrace : script.trace item run = front ++ rest.trace item after)
    (htrace' : script.trace item run.listening = front ++ rest.trace item after.listening)
    (hperform : script.perform run = rest.perform after)
    (hperform' : script.perform run.listening = rest.perform after.listening)
    (h : Heeds rest item after) : Heeds script item run := by
  have hcut : stopped? run.signal.callerCancelled (script.trace item run) =
      (stopped? after.signal.callerCancelled (rest.trace item after)).map (front ++ ·) := by
    rw [htrace, stopped?_append, hfront, Option.none_or, hcancelled]
  cases hstop : stopped? after.signal.callerCancelled (rest.trace item after) with
  | none =>
      obtain ⟨hsame, hsame'⟩ := h.goesOn hstop
      apply Heeds.of_none
      · rw [hcut, hstop, Option.map_none]
      · rw [htrace, htrace', hsame]
      · rw [hperform, hperform', hsame']
  | some moments =>
      obtain ⟨hmoments, hresult⟩ := h.stops hstop
      apply Heeds.of_some
      · rw [hcut, hstop, Option.map_some]
      · rw [htrace', hmoments]
      · rw [hperform', hresult]

end

section

variable {item : Option Item} {e : Event} {next : Unit → Script} {after : Run}

theorem heeds_event (hhandle : run.handle e = (.ok (), after))
    (hlistening : run.listening.handle e = (.ok (), after.listening))
    (hpoll : (run.signal.callerCancelled && e.isPoll) = false)
    (hcancelled : after.signal.callerCancelled = (run.signal.callerCancelled || e.isCancel))
    (h : Heeds (next ()) item after) : Heeds (event e next) item run := by
  have hfront : stopped? run.signal.callerCancelled [⟨item, e, .ok ()⟩] = none := by
    rw [stopped?_cons hpoll]
    rfl
  refine .of_rest hfront ?_ (trace_event hhandle) (trace_event hlistening)
    (perform_event hhandle) (perform_event hlistening) h
  rw [hcancelled, List.any_cons, List.any_nil, Bool.or_false]

theorem heeds_event_error {error : RenderError} (hhandle : run.handle e = (.error error, after))
    (hlistening : run.listening.handle e = (.error error, after.listening))
    (hpoll : e.isPoll = false) : Heeds (event e next) item run := by
  apply Heeds.of_none
  · rw [trace_event_error hhandle, stopped?_cons (by rw [hpoll, Bool.and_false])]
    rfl
  · rw [trace_event_error hhandle, trace_event_error hlistening]
  · rw [perform_event_error hhandle, perform_event_error hlistening]

/-- A poll after a cancel is refused. -/
theorem heeds_refusal (h : run.IsDeaf) (hcancelled : run.signal.callerCancelled = true) :
    Heeds (event .poll next) item run := by
  have hlistening := h.handle_poll_listening
  rw [hcancelled, if_pos rfl] at hlistening
  apply Heeds.of_some
  · rw [trace_event h.handle_poll, hcancelled]
    rfl
  · rw [trace_event_error hlistening]
  · rw [perform_event_error hlistening]

/-- If the body of a bracket is stopped, nothing comes after it. -/
theorem heeds_inside (h : run.IsDeaf) {bracket : Bracket} {body : Script}
    (hbody : Heeds body (bracket.item?.or item) (run.enter bracket))
    (hnext : ∀ {after}, body.perform (run.enter bracket) = (.ok (), after) →
      Heeds (next ()) item (after.leave bracket)) :
    Heeds (inside bracket body next) item run := by
  obtain ⟨hgoesOn, hstops⟩ := hbody
  rw [Run.signal_enter, ← Run.listening_enter] at hgoesOn hstops
  cases hstop : stopped? run.signal.callerCancelled
      (body.trace (bracket.item?.or item) (run.enter bracket)) with
  | some moments =>
      obtain ⟨htrace, hperform⟩ := hstops hstop
      rcases hlistening : body.perform (run.listening.enter bracket) with ⟨result, after⟩
      obtain rfl : result = .error .cancelled := by
        rw [hlistening] at hperform
        exact hperform
      apply Heeds.of_some
      · rw [trace, stopped?_append, hstop, Option.some_or]
      · rw [trace_inside_error hlistening, htrace]
      · rw [perform_inside_error hlistening]
  | none =>
      obtain ⟨htrace, hlistening⟩ := hgoesOn hstop
      rcases hperform : body.perform (run.enter bracket) with ⟨error | _, after⟩
      · rw [hperform] at hlistening
        apply Heeds.of_none
        · rw [trace_inside_error hperform, hstop]
        · rw [trace_inside_error hperform, trace_inside_error hlistening, htrace]
        · rw [perform_inside_error hperform, perform_inside_error hlistening,
            Run.listening_leave]
      · obtain ⟨-, hcancelled⟩ := deaf_perform (h.of_signal_eq (run.signal_enter bracket)) body
          (bracket.item?.or item)
        rw [hperform, Run.signal_enter] at hcancelled
        rw [hperform] at hlistening
        refine .of_rest hstop ?_ (trace_inside hperform) ?_ (perform_inside hperform) ?_
          (hnext hperform)
        · rw [Run.signal_leave, hcancelled]
        · rw [trace_inside hlistening, htrace, Run.listening_leave]
        · rw [perform_inside hlistening, Run.listening_leave]

end

/-- A run that listens does the same until it is refused. -/
theorem heeds {script : Script} (hstrict : script.IsStrict) (h : run.IsDeaf)
    (item : Option Item) : Heeds script item run := by
  induction script generalizing item run with
  | done | fail => exact ⟨fun _ => ⟨rfl, rfl⟩, fun hsome => by cases hsome⟩
  | event e next ih =>
      obtain ⟨hdeaf, hcancelled⟩ := h.handle e
      cases hpoll : e.isPoll with
      | true =>
          obtain rfl : e = .poll := by
            cases e <;> first | rfl | cases hpoll
          cases hstop : run.signal.callerCancelled with
          | true => exact heeds_refusal h hstop
          | false =>
              have hlistening := h.handle_poll_listening
              rw [hstop] at hlistening
              exact heeds_event h.handle_poll hlistening (by rw [hstop]; rfl)
                (Bool.or_false _).symm (ih () hstrict h item)
      | false =>
          have hlistening := run.handle_listening hpoll
          rcases hhandle : run.handle e with ⟨error | _, after⟩
          · rw [hhandle] at hlistening
            exact heeds_event_error hhandle hlistening hpoll
          · rw [hhandle] at hlistening hdeaf hcancelled
            exact heeds_event hhandle hlistening (by rw [hpoll, Bool.and_false]) hcancelled
              (ih () hstrict hdeaf item)
  | inside bracket body next ihbody ih =>
      have henter := h.of_signal_eq (run.signal_enter bracket)
      refine heeds_inside h (ihbody hstrict.1 henter _) ?_
      intro after hperform
      have hafter := (deaf_perform henter body (bracket.item?.or item)).1
      rw [hperform] at hafter
      exact ih () hstrict.2 (hafter.of_signal_eq (after.signal_leave bracket)) item
  | attempt => cases hstrict
  | declared name next ih =>
      have hnext := ih (run.session.declared? name) (hstrict _) h item
      exact ⟨hnext.goesOn, hnext.stops⟩
  | partials next ih =>
      have hnext := ih run.session.stack (hstrict _) h item
      exact ⟨hnext.goesOn, hnext.stops⟩

theorem Heeds.trace_listening {script : Script} {item : Option Item} (h : Heeds script item run) :
    script.trace item run.listening =
      (stopped? run.signal.callerCancelled (script.trace item run)).getD
        (script.trace item run) := by
  cases hstop : stopped? run.signal.callerCancelled (script.trace item run) with
  | none => exact (h.goesOn hstop).1
  | some moments => exact (h.stops hstop).1

end Script

namespace Template

/-- How a render ends whose token is cancelled while an item is being evaluated. It
goes on with `after`, where the render `free`, which is not cancelled, goes on with
`rest`. -/
structure StopsAfter (env : Environment) (item : Option Item) (rest after : List Moment)
    (free cancelled : Rendering) : Prop where
  /-- No other item is started, and no element. -/
  nothingStarts : ∀ moment ∈ after, moment.event = .poll → moment.result = .error .cancelled
  ownWork : ∀ moment ∈ after, moment.event ≠ .poll →
    moment.item = item ∧ moment.event.IsWorkOf env item
  oneText : (handedTexts after).length ≤ 1
  /-- If more would be started, the item is finished as it would be, and no more is
  done than to poll. -/
  stops : (∃ moment ∈ rest, moment.event = .poll) → cancelled.result = .error .cancelled ∧
    ∃ asking, after = untilPoll rest ++ [⟨asking, .poll, .error .cancelled⟩]
  stands : (∀ moment ∈ rest, moment.event ≠ .poll) → after = rest ∧
    cancelled.result = free.result ∧ cancelled.device = free.device ∧
    cancelled.unresolved = free.unresolved

/-- Cancellation stops a render at the next item. When a formatter first cancels the
token while an item is being evaluated, only that item is finished. If the render
would start another item or element then, it ends because it was cancelled; and if it
would not, since the item fails or is the last, it ends as it would otherwise. -/
theorem cancellation_stops_at_next_item (template : Template)
    (hcustom : ∀ tag children, ¬template.Holds (.custom tag children)) (data : Value)
    (device : Device) (clock : Clock) {before after : List Moment} {item : Option Item}
    {result : Except RenderError Unit}
    (htrace : template.trace data device (.new (some false) none clock) =
      before ++ ⟨item, .cancel, result⟩ :: after)
    (hfirst : ∀ moment ∈ before, moment.event ≠ .cancel) :
    ∃ rest, template.trace data device (.new none none clock) =
        before ++ ⟨item, .cancel, result⟩ :: rest ∧
      StopsAfter template.options.environment item rest after
        (template.renderUnder data device (.new none none clock))
        (template.renderUnder data device (.new (some false) none clock)) := by
  cases hvalid : template.isValid with
  | false =>
      rw [trace_invalid hvalid] at htrace
      simp at htrace
  | true =>
      have hlistening : template.start device (.new (some false) none clock) =
          (template.start device (.new none none clock)).listening := rfl
      rw [trace_valid hvalid rfl, hlistening] at htrace
      rw [trace_valid hvalid rfl, renderUnder_valid hvalid rfl, renderUnder_valid hvalid rfl,
        hlistening]
      have hdeaf : (template.start device (.new none none clock)).IsDeaf := ⟨rfl, rfl, rfl⟩
      have hsession : (template.start device (.new none none clock)).session.Obeys
          template.declaring := Session.obeys_new _ _
      have hnot : (template.start device (.new none none clock)).signal.callerCancelled = false :=
        rfl
      generalize template.start device (.new none none clock) = start at *
      have hheeds := Script.heeds (template.script data).isStrict_strict hdeaf none
      -- there are no items of providers that could go on after an error
      have hpasses := passesErrors_of_builtin hcustom
      obtain ⟨hperform, hmoments⟩ := strict_script hpasses data hsession
      have hsession' : start.listening.session.Obeys template.declaring := hsession
      obtain ⟨hperform', hmoments'⟩ := strict_script hpasses data hsession'
      rw [← hmoments', hheeds.trace_listening, hnot] at htrace
      rw [← hmoments, ← hperform, ← hperform']
      obtain ⟨rest, hfree, hsome, hafter⟩ := exists_rest_of_stopped? hfirst htrace
      have hfinishes : Finishes template.options.environment item rest := by
        have hadmits : template.declaring.Admits template.options.environment template.Holds :=
          admits_declaring hpasses rfl rfl
        have hcancelled : FinishesCancelled template.options.environment
            ((template.script data).trace none start) :=
          Script.finishesCancelled_trace
            (Script.heedful_ofItems hadmits hcustom template.holds_items (.root data) none)
            (Script.obeys_ofItems hadmits template.holds_items (.root data) none) hsession
        rw [← hmoments, hfree] at hcancelled
        exact hcancelled.finishes
      refine ⟨rest, hfree, ?_⟩
      obtain ⟨hstarts, hwork, htext⟩ := finishes_stopped hfinishes hafter
      refine ⟨hstarts, hwork, htext, ?_, ?_⟩
      · intro hpolled
        rcases stopped?_true rest with ⟨hnone, -, -⟩ | ⟨-, asking, hstop⟩
        · obtain ⟨moment, hmem, hpoll⟩ := hpolled
          exact absurd hpoll (hnone moment hmem)
        · rw [hstop, Option.isSome_some, Option.isSome_iff_exists] at hsome
          obtain ⟨moments, hstopped⟩ := hsome
          rw [report, (hheeds.stops (by rw [hnot, hstopped])).2]
          exact ⟨rfl, asking, by rw [hafter, hstop, Option.getD_some]⟩
      · intro hnone
        rcases stopped?_true rest with ⟨-, hstop, -⟩ | ⟨⟨moment, hmem, hpoll⟩, -⟩
        · rw [hstop, Option.isSome_none, Option.isSome_eq_false_iff,
            Option.isNone_iff_eq_none] at hsome
          rw [(hheeds.goesOn (by rw [hnot, hsome])).2, hafter, hstop]
          exact ⟨rfl, rfl, rfl, rfl⟩
        · exact absurd hpoll (hnone moment hmem)

/-- A loop over an output whose formatter cancels the token. -/
def stopping : Template where
  source := "\x7b\x7b#each xs\x7d\x7d\x7b\x7b. | stop\x7d\x7d\x7b\x7b/each\x7d\x7d"
  document :=
    ⟨[.block .each ⟨⟨[.name "xs"], "xs"⟩, [], ⟨0, 12, 1, 1⟩⟩
        [.output ⟨.current, [⟨"stop", []⟩], ⟨12, 24, 1, 13⟩⟩ true ⟨12, 24, 1, 13⟩] []
        ⟨0, 33, 1, 1⟩], [], none⟩
  options := { Options.default with
    formatters := .register .empty ⟨"stop", ⟨.any, [], 0, none⟩, fun value _ => ⟨.ok value, true⟩⟩ }

/-- The first of three elements is written, and the second is not started. -/
theorem stopping_writes_one_element :
    let data := Value.map [("xs", .list [.string "1", .string "2", .string "3"])]
    let clock := Clock.still
    let signal := Signal.new (some false) none clock
    let moments := stopping.trace data .memory signal
    let output := Item.output ⟨.current, [⟨"stop", []⟩], ⟨12, 24, 1, 13⟩⟩ true ⟨12, 24, 1, 13⟩
    (∀ tag children, ¬stopping.Holds (.custom tag children)) ∧
    moments = moments.take 5 ++ ⟨some output, .cancel, .ok ()⟩ :: moments.drop 6 ∧
    (∀ moment ∈ moments.take 5, moment.event ≠ .cancel) ∧
    (∃ rest, stopping.trace data .memory (.new none none clock) =
        moments.take 5 ++ ⟨some output, .cancel, .ok ()⟩ :: rest ∧
      StopsAfter stopping.options.environment (some output) rest (moments.drop 6)
        (stopping.renderUnder data .memory (.new none none clock))
        (stopping.renderUnder data .memory signal)) ∧
    stopping.renderText data (some false) clock = .error .cancelled ∧
    (stopping.renderUnder data .memory signal).device.held = "1".toUTF8.data := by
  intro data clock signal moments output
  have hreaches : ∀ forest, stopping.Reaches forest → forest = stopping.document.items := by
    intro forest hforest
    induction hforest with
    | root => rfl
    | reference hforest hreference hdocument hvalid ih =>
        subst ih
        simp [stopping, Item.walkAll, Item.walk] at hreference
    | custom hforest hcustom hprovider hbrings ih =>
        subst ih
        simp [stopping, Item.walkAll, Item.walk] at hcustom
  have hcustom : ∀ tag children, ¬stopping.Holds (.custom tag children) := by
    rintro tag children ⟨forest, hforest, hitem⟩
    rw [hreaches forest hforest] at hitem
    simp [stopping, Item.walkAll, Item.walk] at hitem
  have hmoments : moments =
      moments.take 5 ++ ⟨some output, .cancel, .ok ()⟩ :: moments.drop 6 := by
    with_unfolding_all rfl
  have hnone : ((moments.take 5).all fun moment => !moment.event.isCancel) = true := by
    decide +kernel
  have hfirst : ∀ moment ∈ moments.take 5, moment.event ≠ .cancel := by
    intro moment hmem hcancel
    have hevent := List.all_eq_true.mp hnone moment hmem
    rw [hcancel] at hevent
    cases hevent
  exact ⟨hcustom, hmoments, hfirst,
    cancellation_stops_at_next_item stopping hcustom data .memory clock hmoments hfirst,
    by decide +kernel, by decide +kernel⟩

end Template

end Stencil
