import Stencil.Proofs.Render.Attempts

/-!
Two runs of one script side by side. They take the same steps as long as they are
alike, until an error stops the second of them, if one does. What is kept by every
step is then kept by whole runs.
-/

namespace Stencil

/-- What came of the same in two runs: the same result, with runs that are alike,
or an error in the second, at which it stopped. -/
def Compare (Alike Stopped : Run → Run → Prop) (error : RenderError)
    (done done' : Except RenderError Unit × Run) : Prop :=
  done'.1 = done.1 ∧ Alike done.2 done'.2 ∨ done'.1 = .error error ∧ Stopped done.2 done'.2

/-- Every step leaves runs alike or stops the second, and one that has stopped is
compared with the first however far that goes on. -/
structure Lockstep (Alike Stopped : Run → Run → Prop) (error : RenderError) : Prop where
  declared {run run' : Run} : Alike run run' → run'.session.declared = run.session.declared
  stack {run run' : Run} : Alike run run' → run'.session.stack = run.session.stack
  handle {run run' : Run} (e : Event) : Alike run run' →
    Compare Alike Stopped error (run.handle e) (run'.handle e)
  enter {run run' : Run} (bracket : Bracket) : Alike run run' →
    Alike (run.enter bracket) (run'.enter bracket)
  leave {run run' : Run} (bracket : Bracket) : Alike run run' →
    Alike (run.leave bracket) (run'.leave bracket)
  handleOn {run run' : Run} (e : Event) : Stopped run run' → Stopped (run.handle e).2 run'
  enterOn {run run' : Run} (bracket : Bracket) : Stopped run run' →
    Stopped (run.enter bracket) run'
  leaveOn {run run' : Run} (bracket : Bracket) : Stopped run run' →
    Stopped (run.leave bracket) run'
  leaveStopped {run run' : Run} (bracket : Bracket) : Stopped run run' →
    Stopped run (run'.leave bracket)

namespace Lockstep

variable {Alike Stopped : Run → Run → Prop} {error : RenderError} {run run' : Run}

/-- Whatever the first run goes on to do, the second has stopped. -/
theorem performOn (h : Lockstep Alike Stopped error) (script : Script)
    (hstopped : Stopped run run') : Stopped (script.perform run).2 run' := by
  have hkept := Script.perform_induction
    (R := fun run _ last => Stopped run run' → Stopped last run')
    ?_ ?_ ?_ ?_ ?_ script none run
  · exact hkept hstopped
  · exact fun run hrun => hrun
  · exact fun run e item hrun => h.handleOn e hrun
  · exact fun run bracket hrun => h.enterOn bracket hrun
  · exact fun run bracket hrun => h.leaveOn bracket hrun
  · exact fun hfirst hsecond hrun => hsecond (hfirst hrun)

/-- Runs that are alike stay alike through a script, unless it stops the second. Where
that may be, the script must end with it. -/
theorem perform (h : Lockstep Alike Stopped error) (script : Script)
    (hstrict : ∀ run run', Stopped run run' → script.IsStrict) (halike : Alike run run') :
    Compare Alike Stopped error (script.perform run) (script.perform run') := by
  induction script generalizing run run' with
  | done => exact .inl ⟨rfl, halike⟩
  | fail cause => exact .inl ⟨rfl, halike⟩
  | event e next ih =>
      have hstep := h.handle e halike
      rcases hhandle : run.handle e with ⟨result, after⟩
      rcases hhandle' : run'.handle e with ⟨result', after'⟩
      rw [hhandle, hhandle'] at hstep
      obtain ⟨rfl, hafter⟩ | ⟨rfl, hstopped⟩ := hstep
      · cases result' with
        | error cause =>
            rw [Script.perform_event_error hhandle, Script.perform_event_error hhandle']
            exact .inl ⟨rfl, hafter⟩
        | ok =>
            rw [Script.perform_event hhandle, Script.perform_event hhandle']
            exact ih () hstrict hafter
      · rw [Script.perform_event_error hhandle']
        refine .inr ⟨rfl, ?_⟩
        cases result with
        | error cause =>
            rw [Script.perform_event_error hhandle]
            exact hstopped
        | ok =>
            rw [Script.perform_event hhandle]
            exact h.performOn (next ()) hstopped
  | inside bracket body next ihbody ih =>
      have hbody := ihbody (fun run run' hrun => (hstrict run run' hrun).1) (h.enter bracket halike)
      rcases hperform : body.perform (run.enter bracket) with ⟨result, after⟩
      rcases hperform' : body.perform (run'.enter bracket) with ⟨result', after'⟩
      rw [hperform, hperform'] at hbody
      obtain ⟨rfl, hafter⟩ | ⟨rfl, hstopped⟩ := hbody
      · cases result' with
        | error cause =>
            rw [Script.perform_inside_error hperform, Script.perform_inside_error hperform']
            exact .inl ⟨rfl, h.leave bracket hafter⟩
        | ok =>
            rw [Script.perform_inside hperform, Script.perform_inside hperform']
            exact ih () (fun run run' hrun => (hstrict run run' hrun).2) (h.leave bracket hafter)
      · rw [Script.perform_inside_error hperform']
        have hleft := h.leaveStopped bracket (h.leaveOn bracket hstopped)
        refine .inr ⟨rfl, ?_⟩
        cases result with
        | error cause =>
            rw [Script.perform_inside_error hperform]
            exact hleft
        | ok =>
            rw [Script.perform_inside hperform]
            exact h.performOn (next ()) hleft
  | attempt body next ihbody ih =>
      have hbody := ihbody (fun run run' hrun => (hstrict run run' hrun).elim) halike
      rw [Script.perform_attempt, Script.perform_attempt]
      obtain ⟨hresult, hafter⟩ | ⟨-, hstopped⟩ := hbody
      · rw [hresult]
        exact ih _ (fun run run' hrun => (hstrict run run' hrun).elim) hafter
      · exact (hstrict _ _ hstopped).elim
  | declared name next ih =>
      rw [Script.perform, Script.perform, Session.declared?, Session.declared?, h.declared halike]
      exact ih _ (fun run run' hrun => hstrict run run' hrun _) halike
  | partials next ih =>
      rw [Script.perform, Script.perform, h.stack halike]
      exact ih _ (fun run run' hrun => hstrict run run' hrun _) halike

end Lockstep

end Stencil
