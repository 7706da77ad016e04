import Stencil.Number.Numeral
import Stencil.Text.Alphanumeric

/-!
Paths: how a template names a piece of its data. A path is read from its text
as an anchor (the root, or steps to enclosing scopes) and segments between
points.
-/

namespace Stencil

inductive Segment where
  | name (text : String)
  | index (position : Nat)
  | self
  | parent
  | root
  deriving DecidableEq

/-- A path and the text it was written as. -/
structure Path where
  segments : List Segment
  text : String
  deriving DecidableEq

/-- Why a text is not a path. -/
inductive PathError where
  | empty
  | emptySegment (path : String)
  | indexOutOfRange (digits : String)
  | unexpectedCharacter (c : Char) (path : String)
  deriving DecidableEq

namespace PathError

def message : PathError → String
  | empty => "expected a path"
  | emptySegment path => s!"`{path}` contains an empty segment"
  | indexOutOfRange digits => s!"index `{digits}` is out of range"
  | unexpectedCharacter c path => s!"unexpected character `{c}` in `{path}`"

end PathError

def isNameChar (c : Char) : Bool :=
  Text.isAlphanumeric c || c == '_' || c == '-' || c == '$' || c == '@'

/-- Characters that a path is made of where it ends at the first other one. -/
def isPathChar (c : Char) : Bool :=
  isNameChar c || c == '.' || c == '~' || c == '/'

namespace Path

def current : Path := ⟨[.self], "."⟩

def isCurrent (path : Path) : Bool :=
  path.segments == [.self]

/-- The path starts at the root or at an enclosing scope. -/
def isAnchored (path : Path) : Bool :=
  match path.segments with
  | .root :: _ | .parent :: _ => true
  | _ => false

def names (path : Path) : List String :=
  path.segments.filterMap fun
    | .name text => some text
    | _ => none

end Path

/-- Reads one segment of `path`: a run of digits is a position, anything else a
name. -/
def Segment.read (path : String) (part : List Char) : Except PathError Segment :=
  if part.isEmpty then .error (.emptySegment path)
  else if part.all Char.isDigit then
    let position := Numeral.ofDigits part
    if position < Numeral.unsignedLimit then .ok (.index position)
    else .error (.indexOutOfRange (String.ofList part))
  else match part.find? (!isNameChar ·) with
    | some c => .error (.unexpectedCharacter c path)
    | none => .ok (.name (String.ofList part))

end Stencil
