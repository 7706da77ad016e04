import Stencil.Proofs.Render.Trace

/-!
Rules for scripts. A script obeys rules if every event in it does, whatever the
run answers that performs it; then every event of its trace does. A script that
goes on after an error does not obey them. The scripts of items obey rules that
admit the items.
-/

namespace Stencil

/-- What the events of an item may be, and what partials may be declared as. -/
structure Rules where
  event : Option Item → Event → Prop
  declared : String → List Item → Prop
  declares {item : Option Item} {name : String} {body : List Item} :
    event item (.declare name body) → declared name body

/-- Every event of the script, which belongs to an item or to none, obeys the
rules, and errors end it. -/
def Script.Obeys (rules : Rules) : Script → Option Item → Prop
  | done, _ => True
  | fail _, _ => True
  | event e next, item => rules.event item e ∧ (next ()).Obeys rules item
  | inside bracket body next, item =>
      body.Obeys rules (bracket.item?.or item) ∧ (next ()).Obeys rules item
  | attempt body next, item =>
      body.Obeys rules item ∧ (∀ error, next (.error error) = fail error) ∧
        (next (.ok ())).Obeys rules item
  | declared name next, item =>
      (next none).Obeys rules item ∧
        ∀ body, rules.declared name body → (next (some body)).Obeys rules item
  | partials next, item => ∀ names, (next names).Obeys rules item

/-- Partials are declared as the rules say. -/
def Session.Obeys (rules : Rules) (session : Session) : Prop :=
  ∀ name body, session.declared? name = some body → rules.declared name body

namespace Session

variable {rules : Rules} {session : Session}

theorem obeys_new (rules : Rules) (profiles : Bool) : (Session.new profiles).Obeys rules := by
  intro name body h
  cases h

theorem Obeys.declare (h : session.Obeys rules) {name : String} {body : List Item}
    (hbody : rules.declared name body) : (session.declare name body).Obeys rules := by
  intro name' body' hlookup
  rw [declared?, Session.declare] at hlookup
  by_cases hname : name' = name
  · rw [hname, KeyMap.lookup_insert_self] at hlookup
    obtain rfl := Option.some.inj hlookup
    rwa [hname]
  · rw [KeyMap.lookup_insert_of_ne _ _ hname] at hlookup
    exact h name' body' hlookup

theorem Obeys.congr (h : session.Obeys rules) {session' : Session}
    (hsame : session'.declared = session.declared) : session'.Obeys rules := by
  intro name body hlookup
  rw [declared?, hsame] at hlookup
  exact h name body hlookup

end Session

namespace Run

variable {rules : Rules} {run : Run}

theorem obeys_enter (h : run.session.Obeys rules) (bracket : Bracket) :
    (run.enter bracket).session.Obeys rules := by
  cases bracket <;> exact h.congr rfl

theorem obeys_leave (h : run.session.Obeys rules) (bracket : Bracket) :
    (run.leave bracket).session.Obeys rules :=
  h.congr (run.declared_leave bracket)

theorem obeys_handle (h : run.session.Obeys rules) {item : Option Item} {e : Event}
    (he : rules.event item e) : (run.handle e).2.session.Obeys rules := by
  cases e with
  | declare name body => exact h.declare (rules.declares he)
  | poll | write | look | cancel => exact h

end Run

namespace Script

variable {rules : Rules} {item : Option Item} {run : Run}

/-- Whatever comes of an attempt, what is next obeys the rules. -/
theorem obeys_attempted {body : Script} {next : Except RenderError Unit → Script}
    (h : (attempt body next).Obeys rules item) (result : Except RenderError Unit) :
    (next result).Obeys rules item := by
  cases result with
  | ok => exact h.2.2
  | error error =>
      rw [h.2.1 error]
      trivial

/-- The events of a run obey the rules that its script obeys. -/
theorem trace_obeys {script : Script} (h : script.Obeys rules item)
    (hsession : run.session.Obeys rules) :
    (∀ moment ∈ script.trace item run, rules.event moment.item moment.event) ∧
      (script.perform run).2.session.Obeys rules := by
  induction script generalizing item run with
  | done => exact ⟨by simp [trace], hsession⟩
  | fail error => exact ⟨by simp [trace], hsession⟩
  | event e next ih =>
      have hafter := Run.obeys_handle hsession h.1
      rcases hresult : run.handle e with ⟨error | _, after⟩
      · rw [trace_event_error hresult, perform_event_error hresult]
        rw [hresult] at hafter
        exact ⟨by simpa using h.1, hafter⟩
      · rw [trace_event hresult, perform_event hresult]
        rw [hresult] at hafter
        obtain ⟨hmoments, hlast⟩ := ih () h.2 hafter
        exact ⟨by simpa using ⟨h.1, hmoments⟩, hlast⟩
  | inside bracket body next ihbody ih =>
      obtain ⟨hmoments, hafter⟩ := ihbody h.1 (Run.obeys_enter hsession bracket)
      rcases hresult : body.perform (run.enter bracket) with ⟨error | _, after⟩
      · rw [trace_inside_error hresult, perform_inside_error hresult]
        rw [hresult] at hafter
        exact ⟨hmoments, Run.obeys_leave hafter bracket⟩
      · rw [trace_inside hresult, perform_inside hresult]
        rw [hresult] at hafter
        obtain ⟨hmore, hlast⟩ := ih () h.2 (Run.obeys_leave hafter bracket)
        refine ⟨?_, hlast⟩
        intro moment hmoment
        rcases List.mem_append.mp hmoment with hmem | hmem
        · exact hmoments moment hmem
        · exact hmore moment hmem
  | attempt body next ihbody ih =>
      obtain ⟨hmoments, hafter⟩ := ihbody h.1 hsession
      obtain ⟨hmore, hlast⟩ := ih (body.perform run).1 (obeys_attempted h _) hafter
      exact ⟨List.forall_mem_append.mpr ⟨hmoments, hmore⟩, hlast⟩
  | declared name next ih =>
      cases hbody : run.session.declared? name with
      | none =>
          rw [trace, perform, hbody]
          exact ih none h.1 hsession
      | some body =>
          rw [trace, perform, hbody]
          exact ih (some body) (h.2 body (hsession name body hbody)) hsession
  | partials next ih => exact ih _ (h run.session.stack) hsession

theorem Obeys.andThen {script : Script} {rest : Unit → Script} (h : script.Obeys rules item)
    (hrest : (rest ()).Obeys rules item) : (script.andThen rest).Obeys rules item := by
  induction script generalizing item with
  | done => exact hrest
  | fail error => trivial
  | event e next ih => exact ⟨h.1, ih () h.2 hrest⟩
  | inside bracket body next _ ih => exact ⟨h.1, ih () h.2 hrest⟩
  | attempt body next _ ih =>
      refine ⟨h.1, fun error => ?_, ih (.ok ()) h.2.2 hrest⟩
      change (next (.error error)).andThen rest = fail error
      rw [h.2.1 error, andThen]
  | declared name next ih =>
      exact ⟨ih none h.1 hrest, fun body hbody => ih (some body) (h.2 body hbody) hrest⟩
  | partials next ih => exact fun names => ih names (h names) hrest

theorem Obeys.afterEvents {script : Script} (h : script.Obeys rules item) {events : List Event}
    (hevents : ∀ e ∈ events, rules.event item e) :
    (afterEvents events script).Obeys rules item := by
  induction events with
  | nil => exact h
  | cons e events ih =>
      exact ⟨hevents e (List.mem_cons_self ..),
        ih fun e he => hevents e (List.mem_cons_of_mem _ he)⟩

end Script

end Stencil
