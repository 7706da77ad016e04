import Stencil.Proofs.Render.Nesting
import Stencil.Proofs.Render.Trace

/-!
Rendering as a recursion of four functions that call each other: for items, for one
item, for a section and for a reference to a partial. What one call does up to its
result is a plan, in which further calls are single steps. How many partials may
still be nested is no argument of a call; the plan of a reference asks the run.

A call has a script too, once it is known inside how many partials it is made. The
plan describes the script, so what the call returns is what performing the script
comes to.
-/

namespace Stencil

/-- A call of the recursion. -/
inductive Call where
  | items (forest : List Item) (ctx : Context)
  | item (rendered : Item) (ctx : Context)
  | block (kind : SectionKind) (expression : Expression) (body otherwise : List Item)
      (ctx : Context)
  | reference (name : String) (ctx : Context)

/-- The steps of one call. -/
inductive Plan where
  | done
  | fail (error : RenderError)
  | event (event : Event) (next : Unit → Plan)
  | call (callee : Call) (next : Unit → Plan)
  /-- A call inside a bracket. -/
  | inside (bracket : Bracket) (callee : Call) (next : Unit → Plan)
  /-- Steps that may fail, and those after them, which are told what came of them. -/
  | attempt (body : Plan) (next : Except RenderError Unit → Plan)
  /-- Asks how many partials are being rendered. -/
  | depth (next : Nat → Plan)
  | declared (name : String) (next : Option (List Item) → Plan)
  | partials (next : List String → Plan)

namespace Plan

def ofEvent (event : Event) : Plan :=
  .event event fun _ => .done

/-- The plan of a call that ends with another. -/
def ofCall (callee : Call) : Plan :=
  .call callee fun _ => .done

def afterEvents (events : List Event) (plan : Plan) : Plan :=
  events.foldr (fun e plan => .event e fun _ => plan) plan

def evaluation {α : Type} (evaluation : Evaluation α) (next : α → Plan) : Plan :=
  afterEvents evaluation.events <| match evaluation.result with
    | .ok a => next a
    | .error error => .fail error

/-- The loop over items. -/
def items (ctx : Context) : List Item → Plan
  | [] => .done
  | first :: rest =>
      .event .poll fun _ => .inside (.item first) (.item first ctx) fun _ => items ctx rest

/-- The loop over elements. -/
def elements (body : List Item) (ctx : Context) (path : String) (length : Nat) :
    Nat → List Value → Plan
  | _, [] => .done
  | index, value :: values =>
      .event .poll fun _ =>
        .call (.items body (ctx.enter (.ofElement path value ⟨index, length⟩))) fun _ =>
          elements body ctx path length (index + 1) values

def iterate (kind : SectionKind) (body otherwise : List Item) (ctx : Context) (path : String)
    (value : Value) : Plan :=
  match Script.elementsOf? kind value with
  | some [] => ofCall (.items otherwise ctx)
  | some values => elements body ctx path values.length 0 values
  | none =>
      if value.isTruthy then
        let scope := if kind = .each then Scope.ofElement path value ⟨0, 1⟩
          else Scope.ofValue path value
        ofCall (.items body (ctx.enter scope))
      else ofCall (.items otherwise ctx)

def branch (kind : SectionKind) (body otherwise : List Item) (ctx : Context) (scope : Scope) :
    Plan :=
  match kind, scope.value with
  | .truthy, value => ofCall (.items (if value.any Value.isTruthy then body else otherwise) ctx)
  | .falsy, value => ofCall (.items (if value.any Value.isTruthy then otherwise else body) ctx)
  | .each, some value | .plain, some value => iterate kind body otherwise ctx scope.path value
  | .within, some value =>
      if value.isNull then ofCall (.items otherwise ctx)
      else ofCall (.items body (ctx.enter (.ofValue scope.path value)))
  | _, none => ofCall (.items otherwise ctx)

def recipe (env : Environment) (children : List Item) (ctx : Context) : Recipe → Plan
  | .done => .done
  | .fail error => .fail error
  | .write text next =>
      .attempt (ofEvent (.write text)) fun result => recipe env children ctx (next result)
  | .evaluate expression expected next =>
      let evaluation := Evaluation.ofExpression env ctx expected expression
      afterEvents evaluation.events
        (recipe env children ctx (next (evaluation.result.map Scope.value)))
  | .render selection scope next =>
      let callee := Call.items (selection.items children) (Script.innerContext ctx scope)
      .attempt (ofCall callee) fun result => recipe env children ctx (next result)
  | .declare name body next =>
      .event (.declare name body) fun _ => recipe env children ctx (next ())
  | .partials next => .partials fun names => recipe env children ctx (next names)
  | .nullText next => recipe env children ctx (next env.nullText)

def partialBody (name : String) (ctx : Context) (body : List Item) : Plan :=
  .inside (.reference name) (.items body ctx) fun _ => .done

/-- Enters a partial with the body that is declared by then, or else with that of a
valid document of the host. -/
def enterPartial (env : Environment) (name : String) (ctx : Context) : Plan :=
  .declared name fun
    | some body => partialBody name ctx body
    | none => match env.partials name with
      | none => .fail (.partialNotFound name)
      | some document =>
          if document.isValid then partialBody name ctx document.items
          else .fail (.invalid document.errors)

/-- A reference fails or is skipped if no more partials may be nested. -/
def reference (env : Environment) (name : String) (ctx : Context) : Plan :=
  .depth fun depth =>
    if env.partialDepth ≤ depth then
      match env.overflow with
      | .fail => .fail (.partialOverflow name env.partialDepth)
      | .skip => .done
    else enterPartial env name ctx

end Plan

/-- What a call does, up to the calls that it makes. -/
def Call.plan (env : Environment) : Call → Plan
  | items forest ctx => .items ctx forest
  | item (.literal text) _ => .ofEvent (.write text)
  | item (.output expression escape _) ctx =>
      .evaluation (Evaluation.ofExpression env ctx .value expression) fun scope =>
        .ofEvent (.write (Script.outputText env escape scope))
  | item (.block kind expression body otherwise _) ctx =>
      .ofCall (.block kind expression body otherwise ctx)
  | item (.reference name _) ctx => .ofCall (.reference name ctx)
  | item (.declaration name body _) _ => .ofEvent (.declare name body)
  | item (.custom tag children) ctx =>
      match env.provider? tag.provider with
      | some provider => .recipe env children ctx (provider.render tag children)
      | none => .done
  | block kind expression body otherwise ctx =>
      .evaluation (Evaluation.ofExpression env ctx (Script.expectation kind) expression)
        (.branch kind body otherwise ctx)
  | reference name ctx => .reference env name ctx

namespace Plan

/-- Performing the plan from a run comes to an end, with this result and in this
state: there is a finite derivation, in which every call that is made has one. -/
inductive Returns (env : Environment) : Plan → Run → Except RenderError Unit → Run → Prop where
  | done (run : Run) : Returns env .done run (.ok ()) run
  | fail (error : RenderError) (run : Run) : Returns env (.fail error) run (.error error) run
  | event {e : Event} {next : Unit → Plan} {run after last : Run}
      {result : Except RenderError Unit} (hhandle : run.handle e = (.ok (), after))
      (hnext : Returns env (next ()) after result last) :
      Returns env (.event e next) run result last
  | eventError {e : Event} {next : Unit → Plan} {run after : Run} {error : RenderError}
      (hhandle : run.handle e = (.error error, after)) :
      Returns env (.event e next) run (.error error) after
  | call {callee : Call} {next : Unit → Plan} {run after last : Run}
      {result : Except RenderError Unit}
      (hcallee : Returns env (callee.plan env) run (.ok ()) after)
      (hnext : Returns env (next ()) after result last) :
      Returns env (.call callee next) run result last
  | callError {callee : Call} {next : Unit → Plan} {run after : Run} {error : RenderError}
      (hcallee : Returns env (callee.plan env) run (.error error) after) :
      Returns env (.call callee next) run (.error error) after
  | inside {bracket : Bracket} {callee : Call} {next : Unit → Plan} {run after last : Run}
      {result : Except RenderError Unit}
      (hcallee : Returns env (callee.plan env) (run.enter bracket) (.ok ()) after)
      (hnext : Returns env (next ()) (after.leave bracket) result last) :
      Returns env (.inside bracket callee next) run result last
  | insideError {bracket : Bracket} {callee : Call} {next : Unit → Plan} {run after : Run}
      {error : RenderError}
      (hcallee : Returns env (callee.plan env) (run.enter bracket) (.error error) after) :
      Returns env (.inside bracket callee next) run (.error error) (after.leave bracket)
  | attempt {body : Plan} {next : Except RenderError Unit → Plan} {run after last : Run}
      {attempted result : Except RenderError Unit} (hbody : Returns env body run attempted after)
      (hnext : Returns env (next attempted) after result last) :
      Returns env (.attempt body next) run result last
  | depth {next : Nat → Plan} {run last : Run} {result : Except RenderError Unit}
      (hnext : Returns env (next run.session.depth) run result last) :
      Returns env (.depth next) run result last
  | declared {name : String} {next : Option (List Item) → Plan} {run last : Run}
      {result : Except RenderError Unit}
      (hnext : Returns env (next (run.session.declared? name)) run result last) :
      Returns env (.declared name next) run result last
  | partials {next : List String → Plan} {run last : Run} {result : Except RenderError Unit}
      (hnext : Returns env (next run.session.stack) run result last) :
      Returns env (.partials next) run result last

/-- While the plan is performed from a run, it makes this call, in this state. -/
inductive Makes (env : Environment) : Plan → Run → Call → Run → Prop where
  | event {e : Event} {next : Unit → Plan} {run after state : Run} {callee : Call}
      (hhandle : run.handle e = (.ok (), after)) (hnext : Makes env (next ()) after callee state) :
      Makes env (.event e next) run callee state
  | call (callee : Call) (next : Unit → Plan) (run : Run) :
      Makes env (.call callee next) run callee run
  | afterCall {first callee : Call} {next : Unit → Plan} {run after state : Run}
      (hfirst : Returns env (first.plan env) run (.ok ()) after)
      (hnext : Makes env (next ()) after callee state) :
      Makes env (.call first next) run callee state
  | inside (bracket : Bracket) (callee : Call) (next : Unit → Plan) (run : Run) :
      Makes env (.inside bracket callee next) run callee (run.enter bracket)
  | afterInside {bracket : Bracket} {first callee : Call} {next : Unit → Plan}
      {run after state : Run}
      (hfirst : Returns env (first.plan env) (run.enter bracket) (.ok ()) after)
      (hnext : Makes env (next ()) (after.leave bracket) callee state) :
      Makes env (.inside bracket first next) run callee state
  | attempt {body : Plan} {next : Except RenderError Unit → Plan} {run state : Run}
      {callee : Call} (hbody : Makes env body run callee state) :
      Makes env (.attempt body next) run callee state
  | afterAttempt {body : Plan} {next : Except RenderError Unit → Plan} {run after state : Run}
      {callee : Call} {attempted : Except RenderError Unit}
      (hbody : Returns env body run attempted after)
      (hnext : Makes env (next attempted) after callee state) :
      Makes env (.attempt body next) run callee state
  | depth {next : Nat → Plan} {run state : Run} {callee : Call}
      (hnext : Makes env (next run.session.depth) run callee state) :
      Makes env (.depth next) run callee state
  | declared {name : String} {next : Option (List Item) → Plan} {run state : Run} {callee : Call}
      (hnext : Makes env (next (run.session.declared? name)) run callee state) :
      Makes env (.declared name next) run callee state
  | partials {next : List String → Plan} {run state : Run} {callee : Call}
      (hnext : Makes env (next run.session.stack) run callee state) :
      Makes env (.partials next) run callee state

end Plan

/-- The first call is made by the second, each in its state. -/
def Calls (env : Environment) (callee caller : Call × Run) : Prop :=
  (caller.1.plan env).Makes env caller.2 callee.1 callee.2

/-- The script of a call that is made inside so many partials. That of a template is
the script of its items inside none. -/
def Call.script (env : Environment) (depth : Nat) : Call → Script
  | items forest ctx => .itemsAt env depth forest ctx
  | item rendered ctx =>
      .item env (Script.enterPartial env (env.partialDepth - depth)) rendered ctx
  | block kind expression body otherwise ctx =>
      .block env kind expression (.itemsAt env depth body) (.itemsAt env depth otherwise) ctx
  | reference name ctx => .enterPartial env (env.partialDepth - depth) name ctx

theorem Script.andThen_done (script : Script) : (script.andThen fun _ => done) = script := by
  induction script with
  | done => rfl
  | fail error => rfl
  | event e next ih => rw [andThen, ih]
  | inside bracket body next _ ih => rw [andThen, ih]
  | attempt body next _ ih => simp only [andThen, ih]
  | declared name next ih => simp only [andThen, ih]
  | partials next ih => simp only [andThen, ih]

namespace Plan

/-- The plan takes the steps of the script, which is performed inside so many
partials; the calls that it makes stand for their scripts. -/
inductive Describes (env : Environment) (depth : Nat) : Plan → Script → Prop where
  | done : Describes env depth .done .done
  | fail (error : RenderError) : Describes env depth (.fail error) (.fail error)
  | event (e : Event) {next : Unit → Plan} {next' : Unit → Script}
      (hnext : Describes env depth (next ()) (next' ())) :
      Describes env depth (.event e next) (.event e next')
  | call (callee : Call) {next : Unit → Plan} {rest : Unit → Script}
      (hnext : Describes env depth (next ()) (rest ())) :
      Describes env depth (.call callee next) ((callee.script env depth).andThen rest)
  | inside (bracket : Bracket) (callee : Call) {next : Unit → Plan} {next' : Unit → Script}
      (hnext : Describes env depth (next ()) (next' ())) :
      Describes env depth (.inside bracket callee next)
        (.inside bracket (callee.script env (depth + bracket.names.length)) next')
  | attempt {body : Plan} {body' : Script} {next : Except RenderError Unit → Plan}
      {next' : Except RenderError Unit → Script} (hbody : Describes env depth body body')
      (hnext : ∀ result, Describes env depth (next result) (next' result)) :
      Describes env depth (.attempt body next) (.attempt body' next')
  | depth {next : Nat → Plan} {script : Script} (hnext : Describes env depth (next depth) script) :
      Describes env depth (.depth next) script
  | declared (name : String) {next : Option (List Item) → Plan}
      {next' : Option (List Item) → Script}
      (hnext : ∀ found, Describes env depth (next found) (next' found)) :
      Describes env depth (.declared name next) (.declared name next')
  | partials {next : List String → Plan} {next' : List String → Script}
      (hnext : ∀ names, Describes env depth (next names) (next' names)) :
      Describes env depth (.partials next) (.partials next')

variable {env : Environment} {depth : Nat}

theorem describes_ofCall (callee : Call) :
    (ofCall callee).Describes env depth (callee.script env depth) := by
  have hcall : (ofCall callee).Describes env depth
      ((callee.script env depth).andThen fun _ => .done) := .call callee .done
  rwa [Script.andThen_done] at hcall

theorem describes_afterEvents (events : List Event) {plan : Plan} {script : Script}
    (h : plan.Describes env depth script) :
    (afterEvents events plan).Describes env depth (.afterEvents events script) := by
  induction events with
  | nil => exact h
  | cons e events ih => exact .event e ih

theorem describes_evaluation {α : Type} (evaluated : Evaluation α) {next : α → Plan}
    {next' : α → Script} (hnext : ∀ a, (next a).Describes env depth (next' a)) :
    (evaluation evaluated next).Describes env depth (evaluated.script next') := by
  apply describes_afterEvents
  cases evaluated.result with
  | ok a => exact hnext a
  | error error => exact .fail error

theorem describes_items (ctx : Context) (forest : List Item) :
    (items ctx forest).Describes env depth (.itemsAt env depth forest ctx) := by
  induction forest with
  | nil => exact .done
  | cons first rest ih => exact .event .poll (.inside (.item first) (.item first ctx) ih)

theorem describes_elements (body : List Item) (ctx : Context) (path : String)
    (length index : Nat) (values : List Value) :
    (elements body ctx path length index values).Describes env depth
      (.elements (.itemsAt env depth body) ctx path length index values) := by
  induction values generalizing index with
  | nil => exact .done
  | cons value values ih =>
      exact .event .poll (.call (.items body (ctx.enter (.ofElement path value ⟨index, length⟩)))
        (ih (index + 1)))

theorem describes_iterate (kind : SectionKind) (body otherwise : List Item) (ctx : Context)
    (path : String) (value : Value) :
    (iterate kind body otherwise ctx path value).Describes env depth
      (.iterate kind (.itemsAt env depth body) (.itemsAt env depth otherwise) ctx path value) := by
  unfold iterate Script.iterate
  rcases Script.elementsOf? kind value with _ | _ | ⟨first, rest⟩
  · dsimp only
    split
    · exact describes_ofCall (.items body _)
    · exact describes_ofCall (.items otherwise ctx)
  · exact describes_ofCall (.items otherwise ctx)
  · exact describes_elements body ctx path _ 0 _

theorem describes_branch (kind : SectionKind) (body otherwise : List Item) (ctx : Context)
    (scope : Scope) :
    (branch kind body otherwise ctx scope).Describes env depth
      (.branch kind (.itemsAt env depth body) (.itemsAt env depth otherwise) ctx scope) := by
  unfold branch Script.branch
  cases kind with
  | truthy =>
      dsimp only
      split
      · exact describes_ofCall (.items body ctx)
      · exact describes_ofCall (.items otherwise ctx)
  | falsy =>
      dsimp only
      split
      · exact describes_ofCall (.items otherwise ctx)
      · exact describes_ofCall (.items body ctx)
  | each | plain =>
      cases scope.value with
      | none => exact describes_ofCall (.items otherwise ctx)
      | some value => exact describes_iterate _ body otherwise ctx _ value
  | within =>
      cases scope.value with
      | none => exact describes_ofCall (.items otherwise ctx)
      | some value =>
          dsimp only
          split
          · exact describes_ofCall (.items otherwise ctx)
          · exact describes_ofCall (.items body _)

theorem describes_recipe (children : List Item) (ctx : Context) (steps : Recipe) :
    (recipe env children ctx steps).Describes env depth
      (.ofRecipe env (fun selection => .itemsAt env depth (selection.items children)) ctx
        steps) := by
  induction steps with
  | done => exact .done
  | fail error => exact .fail error
  | write text next ih => exact .attempt (.event _ .done) ih
  | evaluate expression expected next ih => exact describes_afterEvents _ (ih _)
  | render selection scope next ih =>
      exact .attempt (describes_ofCall (.items (selection.items children) _)) ih
  | declare name body next ih => exact .event _ (ih ())
  | partials next ih => exact .partials ih
  | nullText next ih => exact ih _

/-- The plan of a reference asks for the depth, by which its script was chosen. -/
theorem describes_reference (name : String) (ctx : Context) :
    (reference env name ctx).Describes env depth
      (.enterPartial env (env.partialDepth - depth) name ctx) := by
  apply Describes.depth
  split
  · rename_i hfull
    rw [Nat.sub_eq_zero_of_le hfull, Script.enterPartial]
    cases env.overflow with
    | fail => exact .fail _
    | skip => exact .done
  · rename_i hroom
    have hlevels : env.partialDepth - depth = env.partialDepth - (depth + 1) + 1 := by
      omega
    have hbody (body : List Item) : (partialBody name ctx body).Describes env depth
        (.inside (.reference name) (Script.itemsAt env (depth + 1) body ctx) fun _ => .done) :=
      .inside (.reference name) (.items body ctx) .done
    rw [hlevels]
    apply Describes.declared
    intro found
    cases found with
    | some body => exact hbody body
    | none =>
        cases env.partials name with
        | none => exact .fail _
        | some document =>
            dsimp only
            split
            · exact hbody document.items
            · exact .fail _

end Plan

/-- The plan of a call describes its script, at every depth. -/
theorem Call.describes_plan (env : Environment) (depth : Nat) (call : Call) :
    (call.plan env).Describes env depth (call.script env depth) := by
  cases call with
  | items forest ctx => exact Plan.describes_items ctx forest
  | item rendered ctx =>
      cases rendered with
      | literal text => exact .event _ .done
      | output expression escape span =>
          exact Plan.describes_evaluation _ fun scope => .event _ .done
      | block kind expression body otherwise span =>
          exact Plan.describes_ofCall (.block kind expression body otherwise ctx)
      | reference name span => exact Plan.describes_ofCall (.reference name ctx)
      | declaration name body span => exact .event _ .done
      | custom tag children =>
          rw [plan, script, Script.item_custom]
          cases env.provider? tag.provider with
          | some provider => exact Plan.describes_recipe children ctx _
          | none => exact .done
  | block kind expression body otherwise ctx =>
      exact Plan.describes_evaluation _ (Plan.describes_branch kind body otherwise ctx)
  | reference name ctx => exact Plan.describes_reference name ctx

end Stencil
