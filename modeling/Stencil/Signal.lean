import Stencil.Render.Error

/-!
Cancellation and time limit of one render. A render polls its signal, which
reports that the caller cancelled, or that the time is over by its clock.
-/

namespace Stencil

/-- What a clock shows when it is read, one time after another: the time since
the render started. -/
abbrev Clock := Nat → Duration

namespace Clock

/-- A clock that stands still. -/
def still : Clock := fun _ => ⟨0⟩

/-- What a clock shows after it was read. -/
def rest (clock : Clock) : Clock := fun reading => clock (reading + 1)

end Clock

/-- The signal of a render: the caller's token, if the render listens to it, its
own token, and its time limit with the clock for it. -/
structure Signal where
  /-- The render listens to the caller's token. -/
  listens : Bool
  callerCancelled : Bool
  ownCancelled : Bool
  timeLimit : Option Duration
  timedOut : Bool
  clock : Clock

namespace Signal

/-- Time limits from here on end later than a clock can tell, and never. -/
def unreachable : Duration := ⟨Numeral.signedLimit * 1000000000⟩

/-- The signal of a render that starts now. `caller` is the state of the
caller's token, if there is one to listen to. -/
def new (caller : Option Bool) (timeLimit : Option Duration) (clock : Clock := .still) :
    Signal where
  listens := caller.isSome
  callerCancelled := caller.getD false
  ownCancelled := false
  timeLimit := timeLimit.filter fun limit => limit.nanoseconds < unreachable.nanoseconds
  timedOut := false
  clock := clock

def never : Signal := new none none

def isCancelled (signal : Signal) : Bool :=
  signal.ownCancelled || (signal.listens && signal.callerCancelled)

def cancel (signal : Signal) : Signal :=
  { signal with ownCancelled := true }

/-- The signal after the caller's token was cancelled. -/
def cancelCaller (signal : Signal) : Signal :=
  { signal with callerCancelled := true }

/-- Polls the signal when some time has passed since the render started. Once
the time is over the signal stays cancelled for that reason. -/
def poll (signal : Signal) (elapsed : Duration) : Except RenderError Unit × Signal :=
  if signal.isCancelled then
    match signal.timeLimit with
    | some limit => (.error (if signal.timedOut then .timedOut limit else .cancelled), signal)
    | none => (.error .cancelled, signal)
  else match signal.timeLimit with
    | some limit =>
        if limit.nanoseconds ≤ elapsed.nanoseconds then
          (.error (.timedOut limit), { signal with timedOut := true, ownCancelled := true })
        else (.ok (), signal)
    | none => (.ok (), signal)

/-- Polls the signal by its clock, which is read only for a time limit. -/
def check (signal : Signal) : Except RenderError Unit × Signal :=
  match signal.timeLimit with
  | some _ => { signal with clock := signal.clock.rest }.poll (signal.clock 0)
  | none => signal.poll ⟨0⟩

end Signal

end Stencil
