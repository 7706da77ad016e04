import Stencil.Render.Script
import Stencil.Render.Session
import Stencil.Signal
import Stencil.Sink

/-!
Performing scripts: a script drives the sink, the signal and the session of a
run. What a run did stays done when an error stops it, and every bracket is left
on the way out.
-/

namespace Stencil

/-- The state of a render in progress. -/
structure Run where
  sink : Sink
  signal : Signal
  session : Session
  /-- Paths that found nothing and what they were for, in order, if they are
  recorded. -/
  unresolved : Option (List (String × Expectation))

namespace Run

/-- Performs an event. -/
def handle (run : Run) : Event → Except RenderError Unit × Run
  | .poll =>
      let (result, signal) := run.signal.check
      (result, { run with signal })
  | .write text =>
      let (result, sink) := run.sink.write text
      (result, { run with sink })
  | .look path expected found =>
      let records := if found.isNone then [(path.text, expected)] else []
      (.ok (), { run with unresolved := run.unresolved.map (· ++ records) })
  | .cancel => (.ok (), { run with signal := run.signal.cancelCaller })
  | .declare name body => (.ok (), { run with session := run.session.declare name body })

def enter (run : Run) : Bracket → Run
  | .item _ => run
  | .reference name => { run with session := run.session.enter name }

def leave (run : Run) : Bracket → Run
  | .item item => { run with session := run.session.recordItem item }
  | .reference _ => { run with session := run.session.leave }

end Run

def Script.perform : Script → Run → Except RenderError Unit × Run
  | done, run => (.ok (), run)
  | fail error, run => (.error error, run)
  | event e next, run =>
      match run.handle e with
      | (.ok (), run) => (next ()).perform run
      | (.error error, run) => (.error error, run)
  | inside bracket body next, run =>
      match body.perform (run.enter bracket) with
      | (.ok (), run) => (next ()).perform (run.leave bracket)
      | (.error error, run) => (.error error, run.leave bracket)
  | attempt body next, run =>
      match body.perform run with
      | (result, run) => (next result).perform run
  | declared name next, run => (next (run.session.declared? name)).perform run
  | partials next, run => (next run.session.stack).perform run

namespace Script

/-- Scripts in sequence are performed in sequence; the second is not reached if
the first ends with an error. -/
theorem perform_andThen (script : Script) (rest : Unit → Script) (run : Run) :
    (script.andThen rest).perform run =
      match script.perform run with
      | (.ok (), run) => (rest ()).perform run
      | (.error error, run) => (.error error, run) := by
  induction script generalizing run with
  | done => rfl
  | fail error => rfl
  | event e next ih =>
      simp only [andThen, perform]
      split
      · exact ih () _
      · rfl
  | inside bracket body next _ ih =>
      simp only [andThen, perform]
      split
      · exact ih () _
      · rfl
  | attempt body next _ ih => exact ih _ _
  | declared name next ih => exact ih _ run
  | partials next ih => exact ih _ run

end Script

end Stencil
