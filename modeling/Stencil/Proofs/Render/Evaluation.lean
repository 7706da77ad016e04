import Stencil.Proofs.Render.Readings

/-!
The steps of evaluating an expression. They are fixed by its form: its path is looked
up, then each formatter is called, after the expressions among its arguments were
evaluated from left to right. An evaluation takes these steps up to the first call
that fails, and then the script that evaluates goes on or fails.
-/

namespace Stencil

/-- A step of evaluating an expression: a path is looked up, or a formatter called from
an expression on a line. -/
inductive EvaluationStep where
  | look (path : Path) (expected : Expectation)
  | call (name : String) (line : Nat)

namespace Expression

mutual

/-- The steps of evaluating an expression, in order. -/
def plan (expected : Expectation) : Expression → List EvaluationStep
  | ⟨path, calls, span⟩ => .look path expected :: callsPlan span.line calls

def callsPlan (line : Nat) : List FormatterCall → List EvaluationStep
  | [] => []
  | ⟨name, arguments⟩ :: calls =>
      argumentsPlan arguments ++ .call name line :: callsPlan line calls

def argumentsPlan : List Argument → List EvaluationStep
  | [] => []
  | .literal _ :: arguments => argumentsPlan arguments
  | .nested expression :: arguments => expression.plan .argument ++ argumentsPlan arguments

end

end Expression

/-- The events are those of the steps, taken in a context. A formatter that is called
may cancel. -/
inductive Spells (env : Environment) (ctx : Context) : List Event → List EvaluationStep → Prop where
  | nil : Spells env ctx [] []
  | look {events : List Event} {steps : List EvaluationStep} (path : Path)
      (expected : Expectation) (more : Spells env ctx events steps) :
      Spells env ctx (.look path expected (ctx.find? env.resolver path) :: events)
        (.look path expected :: steps)
  | call {events : List Event} {steps : List EvaluationStep} (name : String) (line : Nat)
      (cancels : Bool) (more : Spells env ctx events steps) :
      Spells env ctx ((if cancels then [.cancel] else []) ++ events) (.call name line :: steps)

/-- The error is that of a call of the formatter from an expression on the line. -/
def RenderError.IsOfCall (name : String) (line : Nat) : RenderError → Prop
  | unresolvedFormatter name' _ line' => name' = name ∧ line' = line
  | formatterFailed name' _ => name' = name
  | _ => False

/-- The evaluation takes the steps of a plan: all of them, or those up to a call that
fails. -/
inductive Evaluation.Follows (env : Environment) (ctx : Context) {α : Type} :
    List EvaluationStep → Evaluation α → Prop where
  | completes {steps : List EvaluationStep} {events : List Event} {a : α}
      (spells : Spells env ctx events steps) : Follows env ctx steps ⟨events, .ok a⟩
  | fails {before after : List EvaluationStep} {name : String} {line : Nat} {events : List Event}
      {error : RenderError} (spells : Spells env ctx events (before ++ [.call name line]))
      (ofCall : error.IsOfCall name line) :
      Follows env ctx (before ++ .call name line :: after) ⟨events, .error error⟩

/-- What the steps look up in a context, in order. -/
def looksOfSteps (env : Environment) (ctx : Context) (steps : List EvaluationStep) : List Look :=
  steps.filterMap fun
    | .look path expected => some ⟨path, expected, ctx.find? env.resolver path⟩
    | .call .. => none

theorem looksOfSteps_append (env : Environment) (ctx : Context)
    (first second : List EvaluationStep) :
    looksOfSteps env ctx (first ++ second) =
      looksOfSteps env ctx first ++ looksOfSteps env ctx second :=
  List.filterMap_append

namespace Spells

variable {env : Environment} {ctx : Context} {events events' : List Event}
  {steps steps' : List EvaluationStep}

theorem append (h : Spells env ctx events steps) (h' : Spells env ctx events' steps') :
    Spells env ctx (events ++ events') (steps ++ steps') := by
  induction h with
  | nil => exact h'
  | look path expected more ih => exact .look path expected ih
  | call name line cancels more ih =>
      rw [List.append_assoc]
      exact .call name line cancels ih

/-- What is looked up is what the steps look up. -/
theorem looks (h : Spells env ctx events steps) :
    events.filterMap Event.look? = looksOfSteps env ctx steps := by
  induction h with
  | nil => rfl
  | look path expected more ih => exact congrArg (_ :: ·) ih
  | call name line cancels more ih =>
      rw [List.filterMap_append, ih]
      cases cancels <;> rfl

/-- No step of an evaluation stops a run. -/
theorem handle_ok (h : Spells env ctx events steps) :
    ∀ e ∈ events, ∀ run : Run, (run.handle e).1 = .ok () := by
  induction h with
  | nil => exact List.forall_mem_nil _
  | look path expected more ih => exact List.forall_mem_cons.mpr ⟨fun run => rfl, ih⟩
  | call name line cancels more ih =>
      refine List.forall_mem_append.mpr ⟨?_, ih⟩
      cases cancels with
      | false => exact List.forall_mem_nil _
      | true => exact List.forall_mem_singleton.mpr fun run => rfl

end Spells

namespace Evaluation

variable {env : Environment} {ctx : Context} {α β : Type} {steps more : List EvaluationStep}

theorem follows_pure (a : α) : (pure a : Evaluation α).Follows env ctx [] :=
  .completes .nil

/-- An evaluation that goes on with another follows one plan after the other. -/
theorem Follows.bind {evaluation : Evaluation α} (h : evaluation.Follows env ctx steps)
    {next : α → Evaluation β} (hnext : ∀ a, (next a).Follows env ctx more) :
    (evaluation >>= next).Follows env ctx (steps ++ more) := by
  change (evaluation.andThen next).Follows env ctx (steps ++ more)
  cases h with
  | @completes steps events a spells =>
      have hsecond := hnext a
      change Follows env ctx (steps ++ more) ⟨events ++ (next a).events, (next a).result⟩
      generalize next a = second at hsecond
      cases hsecond with
      | completes spells' => exact .completes (spells.append spells')
      | fails spells' ofCall =>
          rw [← List.append_assoc]
          refine .fails ?_ ofCall
          rw [List.append_assoc]
          exact spells.append spells'
  | fails spells ofCall =>
      rw [List.append_assoc, List.cons_append]
      exact .fails spells ofCall

/-- What is made of the value of an evaluation adds no step. -/
theorem Follows.map {evaluation : Evaluation α} (h : evaluation.Follows env ctx steps)
    (f : α → β) : (evaluation >>= fun a => pure (f a)).Follows env ctx steps := by
  have hbind := h.bind fun a => follows_pure (f a)
  rwa [List.append_nil] at hbind

theorem follows_look (expected : Expectation) (path : Path) :
    (look env ctx expected path).Follows env ctx [.look path expected] :=
  .completes (.look path expected .nil)

/-- A call that is not taken, or that fails, says so of the formatter it names. -/
theorem follows_call (line : Nat) (name : String) (source : Value) (arguments : List Value) :
    (call env line name source arguments).Follows env ctx [.call name line] := by
  have hspells (cancels : Bool) :
      Spells env ctx (if cancels then [.cancel] else []) ([] ++ [.call name line]) := by
    have hone : Spells env ctx ((if cancels then [.cancel] else []) ++ []) [.call name line] :=
      .call name line cancels .nil
    rwa [List.append_nil] at hone
  unfold call Registry.invoke Registry.select
  cases env.formatters.rank name source arguments with
  | nil => exact .fails (hspells false) ⟨rfl, rfl⟩
  | cons best rest =>
      simp only
      cases (best.2.call source arguments).result with
      | ok value => exact .completes (hspells _)
      | error cause => exact .fails (hspells _) rfl

mutual

/-- Evaluating an expression follows its plan. -/
theorem follows_ofExpression (expected : Expectation) : (expression : Expression) →
    (ofExpression env ctx expected expression).Follows env ctx (expression.plan expected)
  | ⟨path, calls, span⟩ => by
      rw [ofExpression, Expression.plan]
      refine (follows_look expected path).bind fun found => ?_
      cases calls with
      | nil => exact follows_pure _
      | cons call calls =>
          exact (follows_ofCalls span.line (call :: calls)
            ((found.map Found.value).getD .null)).map (Scope.ofValue path.text)

theorem follows_ofCalls (line : Nat) : (calls : List FormatterCall) → (value : Value) →
    (ofCalls env ctx line calls value).Follows env ctx (Expression.callsPlan line calls)
  | [], value => follows_pure value
  | ⟨name, arguments⟩ :: calls, value => by
      rw [ofCalls, Expression.callsPlan]
      refine (follows_ofArguments arguments).bind fun arguments => ?_
      exact (follows_call line name value arguments).bind fun value =>
        follows_ofCalls line calls value

theorem follows_ofArguments : (arguments : List Argument) →
    (ofArguments env ctx arguments).Follows env ctx (Expression.argumentsPlan arguments)
  | [] => follows_pure []
  | .literal value :: arguments => by
      rw [ofArguments, Expression.argumentsPlan]
      exact (follows_ofArguments arguments).map (value.toValue :: ·)
  | .nested expression :: arguments => by
      rw [ofArguments, Expression.argumentsPlan]
      refine (follows_ofExpression .argument expression).bind fun scope => ?_
      exact (follows_ofArguments arguments).map (scope.value.getD .null :: ·)

end

variable {evaluation : Evaluation α}

theorem Follows.handle_ok (h : evaluation.Follows env ctx steps) :
    ∀ e ∈ evaluation.events, ∀ run : Run, (run.handle e).1 = .ok () := by
  cases h with
  | completes spells => exact spells.handle_ok
  | fails spells ofCall => exact spells.handle_ok

/-- What an evaluation looks up, in order. -/
def looks (evaluation : Evaluation α) : List Look :=
  evaluation.events.filterMap Event.look?

/-- What an evaluation looks up is what its plan looks up, as far as it gets. -/
theorem Follows.looks (h : evaluation.Follows env ctx steps) :
    evaluation.looks <+: looksOfSteps env ctx steps ∧
      ∀ a, evaluation.result = .ok a → evaluation.looks = looksOfSteps env ctx steps := by
  cases h with
  | completes spells =>
      have hlooks := spells.looks
      exact ⟨hlooks ▸ List.prefix_rfl, fun _ _ => hlooks⟩
  | @fails before after name line events error spells ofCall =>
      have hsteps : before ++ .call name line :: after =
          (before ++ [.call name line]) ++ after := by
        rw [List.append_assoc, List.singleton_append]
      refine ⟨?_, nofun⟩
      rw [Evaluation.looks, spells.looks, hsteps, looksOfSteps_append env ctx _ after]
      exact List.prefix_append _ _

end Evaluation

/-- The run after events, none of which stops it. -/
def Run.after (run : Run) (events : List Event) : Run :=
  events.foldl (fun run e => (run.handle e).2) run

namespace Script

variable {events : List Event}

theorem perform_afterEvents (h : ∀ e ∈ events, ∀ run : Run, (run.handle e).1 = .ok ())
    (script : Script) (run : Run) :
    (afterEvents events script).perform run = script.perform (run.after events) := by
  induction events generalizing run with
  | nil => rfl
  | cons e events ih =>
      obtain ⟨hfirst, hrest⟩ := List.forall_mem_cons.mp h
      have hhandle : run.handle e = (.ok (), (run.handle e).2) := Prod.ext (hfirst run) rfl
      exact (perform_event hhandle).trans (ih hrest (run.handle e).2)

theorem trace_afterEvents (h : ∀ e ∈ events, ∀ run : Run, (run.handle e).1 = .ok ())
    (script : Script) (item : Option Item) (run : Run) :
    (afterEvents events script).trace item run =
      events.map (⟨item, ·, .ok ()⟩) ++ script.trace item (run.after events) := by
  induction events generalizing run with
  | nil => rfl
  | cons e events ih =>
      obtain ⟨hfirst, hrest⟩ := List.forall_mem_cons.mp h
      have hhandle : run.handle e = (.ok (), (run.handle e).2) := Prod.ext (hfirst run) rfl
      refine (trace_event hhandle).trans ?_
      rw [List.map_cons, List.cons_append]
      exact congrArg _ (ih hrest (run.handle e).2)

end Script

end Stencil
