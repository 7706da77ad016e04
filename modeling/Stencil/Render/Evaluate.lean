import Stencil.Options
import Stencil.Render.Script

/-!
Evaluating expressions: the path is looked up, and its value goes through the
formatters, whose arguments are evaluated in the same context.
-/

namespace Stencil

/-- What came of a computation, and the events on the way, also if it failed. -/
structure Evaluation (α : Type) where
  events : List Event
  result : Except RenderError α

namespace Evaluation

def andThen {α β : Type} (evaluation : Evaluation α) (next : α → Evaluation β) : Evaluation β :=
  match evaluation.result with
  | .ok a => ⟨evaluation.events ++ (next a).events, (next a).result⟩
  | .error error => ⟨evaluation.events, .error error⟩

instance : Monad Evaluation where
  pure a := ⟨[], .ok a⟩
  bind := andThen

/-- The script that does the events, and goes on with the result. -/
def script {α : Type} (evaluation : Evaluation α) (next : α → Script) : Script :=
  .afterEvents evaluation.events <| match evaluation.result with
    | .ok a => next a
    | .error error => .fail error

/-- Calls a formatter from an expression on `line`. -/
def call (env : Environment) (line : Nat) (name : String) (source : Value)
    (arguments : List Value) : Evaluation Value :=
  let (result, cancels) := env.formatters.invoke name source arguments
  ⟨if cancels then [.cancel] else [], match result with
    | .ok value => .ok value
    | .error (.unresolved name signature) => .error (.unresolvedFormatter name signature line)
    | .error (.failed name cause) => .error (.formatterFailed name cause.message)⟩

def look (env : Environment) (ctx : Context) (expected : Expectation) (path : Path) :
    Evaluation (Option Found) :=
  let found := ctx.find? env.resolver path
  ⟨[.look path expected found], .ok found⟩

mutual

/-- The scope that an expression denotes. Without formatters it is what the path
found; the formatters take null for a path that found nothing. -/
def ofExpression (env : Environment) (ctx : Context) (expected : Expectation) :
    Expression → Evaluation Scope
  | ⟨path, calls, span⟩ => do
      let found ← look env ctx expected path
      if calls.isEmpty then pure (.ofFound path.text found)
      else
        let value ← ofCalls env ctx span.line calls ((found.map Found.value).getD .null)
        pure (.ofValue path.text value)

def ofCalls (env : Environment) (ctx : Context) (line : Nat) :
    List FormatterCall → Value → Evaluation Value
  | [], value => pure value
  | ⟨name, arguments⟩ :: calls, value => do
      let arguments ← ofArguments env ctx arguments
      ofCalls env ctx line calls (← call env line name value arguments)

def ofArguments (env : Environment) (ctx : Context) : List Argument → Evaluation (List Value)
  | [] => pure []
  | .literal value :: arguments => do
      pure (value.toValue :: (← ofArguments env ctx arguments))
  | .nested expression :: arguments => do
      let scope ← ofExpression env ctx .argument expression
      pure (scope.value.getD .null :: (← ofArguments env ctx arguments))

end

end Evaluation

end Stencil
