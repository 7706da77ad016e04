import Stencil.Formatter.Registry
import Stencil.Html
import Stencil.Text.Blank
import Stencil.Text.Casing
import Stencil.Value.Equality

/-!
The standard formatters.
-/

namespace Stencil.Formatter.Standard

private def ofValue (name : String) (source : ParamType) (body : Value → Value) : Formatter :=
  ⟨name, ⟨source, [], 0, none⟩, fun value _ => .value (body value)⟩

def itemsOf : Value → List Value
  | .list items => items
  | _ => []

def charsOf (value : Value) : List Char :=
  (value.string?.getD "").toList

def textOf (value : Value) : String :=
  value.text ""

def ofChars (s : List Char) : Value :=
  .string (String.ofList s)

def ofChar? : Option Char → Value
  | some c => ofChars [c]
  | none => .null

def width : Value → Except FormatterError Nat
  | .int i => if 0 ≤ i.toInt then .ok i.toInt.toNat else .error (.negativeWidth i)
  | value => .error (.widthType value.typeName)

/-- What text is filled up with: one character, a space if none is given. -/
def fill : Option Value → Except FormatterError Char
  | none => .ok ' '
  | some value => match charsOf value with
    | [c] => .ok c
    | s => .error (.fillLength (String.ofList s))

def sum (a b : Int64) : Except FormatterError Value :=
  match Numeral.inRange? (a.toInt + b.toInt) with
  | some i => .ok (.int i)
  | none => .error (.sumOverflow a b)

def padLeft (value : Value) (arguments : List Value) : Except FormatterError Value := do
  let text := charsOf value
  let width ← width (← arguments[0]?.elim (.error .missingArgument) .ok)
  let fill ← fill arguments[1]?
  pure (ofChars (List.replicate (width - text.length) fill ++ text))

/-- Text cut to a width, with a suffix if it was cut. -/
def truncate (value : Value) (arguments : List Value) : Except FormatterError Value := do
  let text := charsOf value
  let width ← width (← arguments[0]?.elim (.error .missingArgument) .ok)
  if text.length ≤ width then pure (ofChars text)
  else pure (ofChars (text.take width ++ (arguments[1]?.map charsOf).getD []))

/-- Applies a body to the value and its first argument. -/
def onFirst (body : Value → Value → Except FormatterError Value) (value : Value)
    (arguments : List Value) : Reply :=
  match arguments with
  | argument :: _ => ⟨body value argument, false⟩
  | [] => .error .missingArgument

/-- The value, or a fallback for null and empty text. -/
def orDefault (value fallback : Value) : Value :=
  if value.isNull || value.string? == some "" then fallback else value

/-- The standard formatters in the order of their registration. -/
def all : List Formatter := [
  ofValue "upper" .any fun value => .string (Text.upper (textOf value)),
  ofValue "lower" .any fun value => .string (Text.lower (textOf value)),
  ofValue "trim" .any fun value => ofChars (Text.trim (textOf value).toList),
  ofValue "length" .string fun value => .ofNat (charsOf value).length,
  ofValue "length" .list fun value => .ofNat (itemsOf value).length,
  ofValue "length" .map fun value => match value with
    | .map entries => .ofNat entries.length
    | _ => .int 0,
  ⟨"join", ⟨.list, [.string], 1, none⟩, fun value arguments =>
    let separator := (arguments.head?.bind Value.string?).getD ", "
    .value (.string (String.intercalate separator ((itemsOf value).map textOf)))⟩,
  ⟨"default", ⟨.any, [.any], 0, none⟩, onFirst fun value fallback =>
    .ok (orDefault value fallback)⟩,
  ⟨"add", ⟨.int, [.int], 0, none⟩, onFirst fun
    | .int a, .int b => sum a b
    | _, _ => .error .notIntegers⟩,
  ⟨"add", ⟨.float, [.float], 0, none⟩, onFirst fun
    | .float a, .float b => .ok (.float (a.add b))
    | _, _ => .error .notNumbers⟩,
  ⟨"equals", ⟨.any, [.any], 0, none⟩, onFirst fun value other =>
    .ok (.bool (value.equals other))⟩,
  ofValue "not" .any fun value => .bool !value.isTruthy,
  ofValue "first" .list fun value => (itemsOf value).head?.getD .null,
  ofValue "first" .string fun value => ofChar? (charsOf value).head?,
  ofValue "last" .list fun value => (itemsOf value).getLast?.getD .null,
  ofValue "last" .string fun value => ofChar? (charsOf value).getLast?,
  ofValue "reverse" .list fun value => .list (itemsOf value).reverse,
  ofValue "reverse" .string fun value => ofChars (charsOf value).reverse,
  ⟨"pad_left", ⟨.string, [.int, .string], 1, none⟩, fun value arguments =>
    ⟨padLeft value arguments, false⟩⟩,
  ⟨"truncate", ⟨.string, [.int, .string], 1, none⟩, fun value arguments =>
    ⟨truncate value arguments, false⟩⟩,
  ofValue "html_escape" .string fun value => .string (Html.escape (String.ofList (charsOf value)))]

end Stencil.Formatter.Standard

namespace Stencil.Registry

def standard : Registry := ⟨Formatter.Standard.all⟩

end Stencil.Registry
