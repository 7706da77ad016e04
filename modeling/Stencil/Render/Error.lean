import Stencil.Fault

/-!
What can stop a render.
-/

namespace Stencil

/-- Why a destination did not take output. -/
inductive DeviceError where
  | full
  /-- The destination took none of the bytes it was offered. -/
  | refused
  | flush
  /-- The destination could not be opened, in the words of the host. -/
  | unavailable (reason : String)
  deriving DecidableEq

def DeviceError.message : DeviceError → String
  | full => "disk full"
  | refused => "failed to write whole buffer"
  | flush => "flush failed"
  | unavailable reason => reason

structure Duration where
  nanoseconds : Nat
  deriving DecidableEq

namespace Duration

/-- A number of units with the decimals of what is left over, of which the
largest has `digits` digits. -/
private def decimalText (whole rest digits : Nat) : String :=
  let padded := (toString (Nat.pow 10 digits + rest)).toList.drop 1
  let shown := (padded.reverse.dropWhile (· == '0')).reverse
  toString whole ++ (if shown.isEmpty then "" else "." ++ String.ofList shown)

/-- The duration in the largest unit of which it has one. -/
def text (duration : Duration) : String :=
  let n := duration.nanoseconds
  if 1000000000 ≤ n then decimalText (n / 1000000000) (n % 1000000000) 9 ++ "s"
  else if 1000000 ≤ n then decimalText (n / 1000000) (n % 1000000) 6 ++ "ms"
  else if 1000 ≤ n then decimalText (n / 1000) (n % 1000) 3 ++ "µs"
  else toString n ++ "ns"

end Duration

/-- What stopped a render. -/
inductive RenderError where
  /-- The template, or a partial it needs, has parse errors. -/
  | invalid (errors : List ParseError)
  /-- No overload of a formatter takes the call on `line`. -/
  | unresolvedFormatter (name signature : String) (line : Nat)
  | formatterFailed (name message : String)
  | partialNotFound (name : String)
  | partialOverflow (name : String) (limit : Nat)
  | outputLimit (limit : Nat)
  | cancelled
  | timedOut (timeout : Duration)
  | device (cause : DeviceError)
  deriving DecidableEq

namespace RenderError

def code : RenderError → String
  | invalid errors => match errors with
    | error :: _ => error.kind.code
    | [] => "T-0-1"
  | unresolvedFormatter .. => "T-2-1"
  | formatterFailed .. => "T-2-2"
  | partialOverflow .. => "T-2-3"
  | partialNotFound _ => "T-2-4"
  | outputLimit _ => "T-2-5"
  | timedOut _ => "T-2-6"
  | cancelled => "T-2-7"
  | device _ => "T-0-1"

def isInterrupted : RenderError → Bool
  | cancelled | timedOut _ => true
  | _ => false

def message : RenderError → String
  | invalid errors => ParseError.listText errors
  | unresolvedFormatter name signature line =>
      s!"No formatter overload matches {name}{signature} (line {line})"
  | formatterFailed name message => s!"Formatter '{name}' failed: {message}"
  | partialNotFound name => s!"Partial not found: {name}"
  | partialOverflow name limit => s!"Partial stack overflow in '{name}' (stack size {limit})"
  | outputLimit limit => s!"Output limit of {limit} bytes reached"
  | cancelled => "Render cancelled"
  | timedOut timeout => "Render timed out after " ++ timeout.text
  | device cause => "I/O error: " ++ cause.message

end RenderError

end Stencil
