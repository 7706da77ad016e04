import Stencil.Text.Quoted
import Stencil.Value.Text

/-!
Signatures: which values a formatter overload takes, how well they fit, and
what they are converted to.
-/

namespace Stencil

/-- The declared type of a formatter parameter. -/
inductive ParamType where
  | any
  | bool
  | int
  | float
  /-- An integer or a double, as it is. -/
  | number
  | string
  | list
  | map
  /-- An object of the host with this type name. -/
  | object (typeName : String)
  deriving DecidableEq

/-- Why a formatter returned no value. -/
inductive FormatterError where
  | notConvertible (typeName : String) (param : ParamType)
  | tooManyArguments
  | missingArgument
  | notIntegers
  | notNumbers
  | sumOverflow (a b : Int64)
  | negativeWidth (width : Int64)
  | widthType (typeName : String)
  | fillLength (fill : String)
  /-- A failure in the formatter's own words. -/
  | failed (message : String)
  deriving DecidableEq

namespace ParamType

def text : ParamType → String
  | any => "Any"
  | bool => "Bool"
  | int => "Int"
  | float => "Float"
  | number => "Number"
  | string => "String"
  | list => "List"
  | map => "Map"
  | object typeName => typeName

/-- How well a value fits: 3 for the type itself, 2 for a conversion, 1 for the
type of every value; `none` if it cannot be passed. -/
def score (param : ParamType) (value : Value) : Option Nat :=
  match param, value with
  | any, _ => some 1
  | bool, .bool _ | int, .int _ | float, .float _ | string, .string _ | list, .list _
  | map, .map _ => some 3
  | object typeName, .object host => if host.typeName = typeName then some 3 else none
  | int, .float x => if x.integer?.isSome then some 2 else none
  | float, .int _ | number, .int _ | number, .float _ => some 2
  | string, .int _ | string, .float _ | string, .bool _ => some 2
  | _, _ => none

/-- An integer of at most 2^63 in magnitude as one of 64 bits, the largest
standing for 2^63 itself. -/
def saturate? (i : Int) : Option Int64 :=
  if i.natAbs ≤ Numeral.signedLimit then some (Int64.ofInt (min i Int64.maxValue.toInt)) else none

def convert? (param : ParamType) (value : Value) : Option Value :=
  match param, value with
  | int, .float x => do .int <$> saturate? (← x.integer?)
  | float, .int i => some (.float (.ofInt i.toInt))
  | string, .int _ | string, .float _ | string, .bool _ => some (.string (value.text ""))
  | _, _ => if (param.score value).isSome then some value else none

/-- The value as a parameter receives it, or the reason why it does not. -/
def convert (param : ParamType) (value : Value) : Except FormatterError Value :=
  match param.convert? value with
  | some converted => .ok converted
  | none => .error (.notConvertible value.typeName param)

end ParamType

namespace FormatterError

def message : FormatterError → String
  | notConvertible typeName param =>
      let target := param.text
      s!"cannot convert {typeName} to {target}"
  | tooManyArguments => "too many arguments"
  | missingArgument => "missing argument"
  | notIntegers => "add expects integers"
  | notNumbers => "add expects numbers"
  | sumOverflow a b =>
      let left := a.toInt
      let right := b.toInt
      s!"{left} + {right} overflows"
  | negativeWidth width =>
      let given := width.toInt
      s!"width must not be negative, got {given}"
  | widthType typeName => s!"width must be an integer, got {typeName}"
  | fillLength fill =>
      let quoted := Text.quote fill
      s!"fill must be a single character, got {quoted}"
  | failed message => message

end FormatterError

/-- The parameters of an overload: the value it is applied to, the arguments, of
which the last `optional` may be left out, and the type of any further ones. -/
structure Signature where
  source : ParamType
  params : List ParamType
  optional : Nat
  rest : Option ParamType

namespace Signature

/-- The number of arguments that cannot be left out. -/
def required (signature : Signature) : Nat :=
  signature.params.length - signature.optional

def acceptsArity (signature : Signature) (count : Nat) : Bool :=
  signature.required ≤ count && (count ≤ signature.params.length || signature.rest.isSome)

def paramAt? (signature : Signature) (position : Nat) : Option ParamType :=
  signature.params[position]?.or signature.rest

/-- The sum of the scores of arguments from a position on. -/
def scoreFrom (signature : Signature) (position : Nat) : List Value → Option Nat
  | [] => some 0
  | argument :: arguments => do
      let own ← (← signature.paramAt? position).score argument
      let others ← signature.scoreFrom (position + 1) arguments
      pure (own + others)

/-- How well a call fits, or `none` if its number of arguments or one of its
values does not. A word of 32 bits holds it for less than a billion arguments. -/
def score (signature : Signature) (source : Value) (arguments : List Value) : Option Nat := do
  if signature.acceptsArity arguments.length then
    let own ← signature.source.score source
    let others ← signature.scoreFrom 0 arguments
    pure (own + others)
  else none

/-- The arguments from a position on, as the parameters receive them. -/
def convertFrom (signature : Signature) (position : Nat) :
    List Value → Except FormatterError (List Value)
  | [] => pure []
  | argument :: arguments => do
      let converted ← match signature.paramAt? position with
        | some param => param.convert argument
        | none => .error .tooManyArguments
      pure (converted :: (← signature.convertFrom (position + 1) arguments))

def text (signature : Signature) : String :=
  let params := signature.params.zipIdx.map fun (param, position) =>
    ", " ++ param.text ++ if position < signature.required then "" else "?"
  let rest := match signature.rest with
    | some param => ", " ++ param.text ++ "..."
    | none => ""
  "(" ++ signature.source.text ++ String.join params ++ rest ++ ")"

end Signature

end Stencil
