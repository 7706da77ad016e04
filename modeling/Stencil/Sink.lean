import Stencil.Render.Error
import Stencil.Text.Encoding

/-!
Where output goes: a device that takes bytes, and a sink in front of it that
encodes text and keeps to a size limit. The sink refuses a text whole that would
cross the limit, and every text after it.
-/

namespace Stencil

/-- A device that keeps bytes. With a `room` it takes no more than that many;
beyond it fails, or refuses to take any. -/
structure Device where
  room : Option Nat
  refuses : Bool
  flushFails : Bool
  held : Array UInt8

namespace Device

/-- A device without limits that holds nothing yet. -/
def memory : Device := ⟨none, false, false, #[]⟩

/-- Takes all of the bytes, or as many as there is room for and then fails. -/
def write (device : Device) (bytes : List UInt8) : Except DeviceError Unit × Device :=
  match device.room with
  | none => (.ok (), { device with held := device.held ++ bytes })
  | some room =>
      let free := room - device.held.size
      let taken := { device with held := device.held ++ bytes.take free }
      if bytes.length ≤ free then (.ok (), taken)
      else (.error (if device.refuses then .refused else .full), taken)

def flush (device : Device) : Except DeviceError Unit :=
  if device.flushFails then .error .flush else .ok ()

end Device

/-- A device with an encoding and a size limit, of which zero is none. -/
structure Sink where
  device : Device
  encoding : Encoding
  maxSize : Nat
  written : Nat
  limitReached : Bool

namespace Sink

def new (device : Device) (encoding : Encoding) (maxSize : Nat) : Sink :=
  ⟨device, encoding, maxSize, 0, false⟩

def write (sink : Sink) (text : String) : Except RenderError Unit × Sink :=
  if text.isEmpty then (.ok (), sink)
  else if sink.limitReached then (.error (.outputLimit sink.maxSize), sink)
  else
    let size := sink.encoding.encodedSize text
    if 0 < sink.maxSize && sink.maxSize < sink.written + size then
      (.error (.outputLimit sink.maxSize), { sink with limitReached := true })
    else
      match sink.device.write (sink.encoding.encode text) with
      | (.ok (), device) => (.ok (), { sink with device, written := sink.written + size })
      | (.error cause, device) => (.error (.device cause), { sink with device })

def flush (sink : Sink) : Except RenderError Unit :=
  match sink.device.flush with
  | .ok () => .ok ()
  | .error cause => .error (.device cause)

end Sink

end Stencil
