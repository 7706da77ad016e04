import Stencil.Formatter.Signature

/-!
Formatters and the choice between overloads of one name: the best fit is
called, and of equal fits the one registered last.
-/

namespace Stencil

/-- What the body of a formatter returns, and whether it asks for the render to
be cancelled. -/
structure Reply where
  result : Except FormatterError Value
  cancels : Bool

namespace Reply

def value (value : Value) : Reply := ⟨.ok value, false⟩

def error (cause : FormatterError) : Reply := ⟨.error cause, false⟩

end Reply

/-- One overload of a formatter. -/
structure Formatter where
  name : String
  signature : Signature
  body : Value → List Value → Reply

/-- Converts the source and the arguments and calls the body. -/
def Formatter.call (formatter : Formatter) (source : Value) (arguments : List Value) : Reply :=
  let converted := do
    let source ← formatter.signature.source.convert source
    let arguments ← formatter.signature.convertFrom 0 arguments
    pure (source, arguments)
  match converted with
  | .ok (source, arguments) => formatter.body source arguments
  | .error cause => .error cause

/-- Overloads in the order of their registration. -/
structure Registry where
  formatters : List Formatter

/-- Why a call returned no value. -/
inductive CallError where
  /-- No overload takes values of these types. -/
  | unresolved (name signature : String)
  | failed (name : String) (cause : FormatterError)

def CallError.message : CallError → String
  | unresolved name signature => s!"no overload of '{name}' accepts {signature}"
  | failed name cause =>
      let message := cause.message
      s!"'{name}' failed: {message}"

namespace Registry

def empty : Registry := ⟨[]⟩

def register (registry : Registry) (formatter : Formatter) : Registry :=
  ⟨registry.formatters ++ [formatter]⟩

def size (registry : Registry) : Nat :=
  registry.formatters.length

def candidates (registry : Registry) (name : String) : List Formatter :=
  registry.formatters.filter (·.name == name)

def contains (registry : Registry) (name : String) : Bool :=
  registry.formatters.any (·.name == name)

/-- The overloads that take a call, with their scores: best first, and of equal
ones the latest first. -/
def rank (registry : Registry) (name : String) (source : Value) (arguments : List Value) :
    List (Nat × Formatter) :=
  let applicable := (registry.candidates name).reverse.filterMap fun formatter =>
    (formatter.signature.score source arguments).map fun score => (score, formatter)
  applicable.mergeSort fun a b => b.1 ≤ a.1

/-- The types of a call's values as written in messages. -/
def callText (source : Value) (arguments : List Value) : String :=
  "(" ++ String.intercalate ", " ((source :: arguments).map Value.typeName) ++ ")"

def select (registry : Registry) (name : String) (source : Value) (arguments : List Value) :
    Except CallError Formatter :=
  match registry.rank name source arguments with
  | (_, formatter) :: _ => .ok formatter
  | [] => .error (.unresolved name (callText source arguments))

/-- The two best overloads for a call fit equally well. -/
def isAmbiguous (registry : Registry) (name : String) (source : Value) (arguments : List Value) :
    Bool :=
  match registry.rank name source arguments with
  | (best, _) :: (next, _) :: _ => best == next
  | _ => false

/-- Calls the overload that takes the call; also says whether its body asks for
cancellation. -/
def invoke (registry : Registry) (name : String) (source : Value) (arguments : List Value) :
    Except CallError Value × Bool :=
  match registry.select name source arguments with
  | .error cause => (.error cause, false)
  | .ok formatter =>
      let reply := formatter.call source arguments
      (match reply.result with
        | .ok value => .ok value
        | .error cause => .error (.failed name cause), reply.cancels)

end Registry

end Stencil
