import Stencil.Fault
import Stencil.Text.Quoted
import Stencil.Value.Text

/-!
Expressions: a path followed by a chain of formatter calls, whose arguments
are literals or expressions again.
-/

namespace Stencil

inductive Literal where
  | null
  | bool (b : Bool)
  | int (i : Int64)
  | float (x : Binary64)
  | string (s : String)
  deriving DecidableEq

mutual

/-- A path and the formatters that its value goes through, with the place of
the tag that holds it. -/
structure Expression where
  path : Path
  calls : List FormatterCall
  span : Span

/-- A call of a formatter by name. -/
structure FormatterCall where
  name : String
  arguments : List Argument

/-- An argument of a formatter call. -/
inductive Argument where
  | literal (value : Literal)
  | nested (expression : Expression)

end

def Literal.toValue : Literal → Value
  | null => .null
  | bool b => .bool b
  | int i => .int i
  | float x => .float x
  | string s => .string s

def Literal.text : Literal → String
  | string s => Text.quote s
  | literal => literal.toValue.text "null"

namespace Expression

def current (span : Span) : Expression := ⟨.current, [], span⟩

mutual

def text : Expression → String
  | ⟨path, calls, _⟩ => path.text ++ callsText calls

def callsText : List FormatterCall → String
  | [] => ""
  | ⟨name, arguments⟩ :: calls =>
      let list := if arguments.isEmpty then ""
        else "(" ++ String.intercalate ", " (argumentTexts arguments) ++ ")"
      " | " ++ name ++ list ++ callsText calls

def argumentTexts : List Argument → List String
  | [] => []
  | .literal value :: arguments => value.text :: argumentTexts arguments
  | .nested expression :: arguments => expression.text :: argumentTexts arguments

end

end Expression

end Stencil
