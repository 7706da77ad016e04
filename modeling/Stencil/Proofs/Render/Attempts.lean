import Stencil.Proofs.Render.Reach

/-!
Strict scripts, which every error ends. A script that obeys rules is performed like
a strict one, so that what is proved of strict scripts holds of it.
-/

namespace Stencil

namespace Script

/-- The script never goes on after an error. -/
def IsStrict : Script → Prop
  | done | fail _ => True
  | event _ next => (next ()).IsStrict
  | inside _ body next => body.IsStrict ∧ (next ()).IsStrict
  | attempt .. => False
  | declared _ next => ∀ found, (next found).IsStrict
  | partials next => ∀ names, (next names).IsStrict

/-- The script that ends where an attempt fails. -/
def strict : Script → Script
  | done => done
  | fail error => fail error
  | event e next => event e fun _ => (next ()).strict
  | inside bracket body next => inside bracket body.strict fun _ => (next ()).strict
  | attempt body next => body.strict.andThen fun _ => (next (.ok ())).strict
  | declared name next => declared name fun found => (next found).strict
  | partials next => partials fun names => (next names).strict

theorem IsStrict.andThen {script : Script} {rest : Unit → Script} (h : script.IsStrict)
    (hrest : (rest ()).IsStrict) : (script.andThen rest).IsStrict := by
  induction script with
  | done => exact hrest
  | fail error => trivial
  | event e next ih => exact ih () h
  | inside bracket body next _ ih => exact ⟨h.1, ih () h.2⟩
  | attempt => cases h
  | declared name next ih => exact fun found => ih found (h found)
  | partials next ih => exact fun names => ih names (h names)

theorem andThen_assoc (script : Script) (rest last : Unit → Script) :
    (script.andThen rest).andThen last = script.andThen fun _ => (rest ()).andThen last := by
  induction script with
  | done | fail => rfl
  | event e next ih => exact congrArg (event e) (funext fun _ => ih ())
  | inside bracket body next _ ih => exact congrArg (inside bracket body) (funext fun _ => ih ())
  | attempt body next _ ih => exact congrArg (attempt body) (funext ih)
  | declared name next ih => exact congrArg (declared name) (funext ih)
  | partials next ih => exact congrArg partials (funext ih)

theorem strict_andThen (script : Script) (rest : Unit → Script) :
    (script.andThen rest).strict = script.strict.andThen fun _ => (rest ()).strict := by
  induction script with
  | done | fail => rfl
  | event e next ih => exact congrArg (event e) (funext fun _ => ih ())
  | inside bracket body next _ ih =>
      exact congrArg (inside bracket body.strict) (funext fun _ => ih ())
  | attempt body next _ ih =>
      rw [andThen, strict, strict, ih, andThen_assoc]
  | declared name next ih => exact congrArg (declared name) (funext ih)
  | partials next ih => exact congrArg partials (funext ih)

theorem isStrict_strict (script : Script) : script.strict.IsStrict := by
  induction script with
  | done | fail => trivial
  | event e next ih => exact ih ()
  | inside bracket body next ihbody ih => exact ⟨ihbody, ih ()⟩
  | attempt body next ihbody ih => exact ihbody.andThen (ih (.ok ()))
  | declared name next ih => exact ih
  | partials next ih => exact ih

variable {rules : Rules} {item : Option Item} {run : Run}

/-- A script that obeys rules does what it does if it ends where an attempt fails. -/
theorem strict_same {script : Script} (h : script.Obeys rules item)
    (hsession : run.session.Obeys rules) :
    script.strict.perform run = script.perform run ∧
      script.strict.trace item run = script.trace item run := by
  induction script generalizing item run with
  | done | fail => exact ⟨rfl, rfl⟩
  | event e next ih =>
      have hafter := Run.obeys_handle hsession h.1
      rcases hhandle : run.handle e with ⟨error | _, after⟩
      · rw [strict, perform_event_error hhandle, perform_event_error hhandle,
          trace_event_error hhandle, trace_event_error hhandle]
        exact ⟨rfl, rfl⟩
      · rw [hhandle] at hafter
        obtain ⟨hperform, htrace⟩ := ih () h.2 hafter
        rw [strict, perform_event hhandle, perform_event hhandle, trace_event hhandle,
          trace_event hhandle, hperform, htrace]
        exact ⟨rfl, rfl⟩
  | inside bracket body next ihbody ih =>
      have henter := Run.obeys_enter hsession bracket
      obtain ⟨hsame, hsame'⟩ := ihbody h.1 henter
      have hafter := (trace_obeys h.1 henter).2
      rcases hperform : body.perform (run.enter bracket) with ⟨error | _, after⟩
      · have hstrict := hsame.trans hperform
        rw [strict, perform_inside_error hperform, perform_inside_error hstrict,
          trace_inside_error hperform, trace_inside_error hstrict, hsame']
        exact ⟨rfl, rfl⟩
      · have hstrict := hsame.trans hperform
        rw [hperform] at hafter
        obtain ⟨hnext, hnext'⟩ := ih () h.2 (Run.obeys_leave hafter bracket)
        rw [strict, perform_inside hperform, perform_inside hstrict, trace_inside hperform,
          trace_inside hstrict, hsame', hnext, hnext']
        exact ⟨rfl, rfl⟩
  | attempt body next ihbody ih =>
      obtain ⟨hsame, hsame'⟩ := ihbody h.1 hsession
      have hafter := (trace_obeys h.1 hsession).2
      rw [strict, perform_andThen, trace_andThen, perform_attempt, trace_attempt, hsame, hsame']
      rcases hperform : body.perform run with ⟨error | _, after⟩
      · rw [h.2.1 error]
        exact ⟨rfl, rfl⟩
      · rw [hperform] at hafter
        obtain ⟨hnext, hnext'⟩ := ih (.ok ()) h.2.2 hafter
        exact ⟨hnext, congrArg _ hnext'⟩
  | declared name next ih =>
      cases hbody : run.session.declared? name with
      | none =>
          rw [strict, perform, perform, trace, trace, hbody]
          exact ih none h.1 hsession
      | some body =>
          rw [strict, perform, perform, trace, trace, hbody]
          exact ih (some body) (h.2 body (hsession name body hbody)) hsession
  | partials next ih => exact ih _ (h run.session.stack) hsession

end Script

namespace Template

variable {template : Template} {run : Run}

/-- Where errors end the recipes of a template's items, they end its script, whatever
the limit on nested partials is. -/
theorem strict_ofItems (h : template.PassesErrors) (env : Environment)
    (hpartials : env.partials = template.options.partials)
    (hproviders : env.providers = template.options.providers) (ctx : Context)
    (hsession : run.session.Obeys template.declaring) :
    let script := Script.ofItems env template.document.items ctx
    script.strict.perform run = script.perform run ∧
      script.strict.trace none run = script.trace none run :=
  Script.strict_same
    (Script.obeys_ofItems (admits_declaring h hpartials hproviders) template.holds_items ctx none)
    hsession

theorem strict_script (h : template.PassesErrors) (data : Value)
    (hsession : run.session.Obeys template.declaring) :
    (template.script data).strict.perform run = (template.script data).perform run ∧
      (template.script data).strict.trace none run = (template.script data).trace none run :=
  strict_ofItems h template.options.environment rfl rfl (.root data) hsession

end Template

end Stencil
