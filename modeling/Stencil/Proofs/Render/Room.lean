import Stencil.Proofs.Render.Device
import Stencil.Proofs.Render.Lockstep

/-!
A device that runs out of room. A run to it takes the same steps as a run to a
device without limits, until a text does not fit whole; the beginning that fits is
kept, and the run ends. So the device holds the first of the bytes that the other
one holds.
-/

namespace Stencil

namespace Device

/-- The device with room for so many bytes. -/
def withRoom (device : Device) (room : Nat) (refuses : Bool) : Device :=
  { device with room := some room, refuses }

/-- Why a device without room left does not take output. -/
def lack (refuses : Bool) : DeviceError :=
  if refuses then .refused else .full

/-- The second device has no room left and holds the first bytes of the first one,
which has no limits and holds more. -/
structure Fills (room : Nat) (device device' : Device) : Prop where
  unlimited : device.room = none
  more : room < device.held.size
  held : device'.held.toList = device.held.toList.take room

variable {device device' : Device} {room : Nat} {refuses : Bool} {bytes : List UInt8}

theorem held_offer (h : device.room = none) (bytes : List UInt8) :
    (device.offer bytes).held.toList = device.held.toList ++ bytes := by
  simp [offer, keep, h]

theorem size_offer (h : device.room = none) (bytes : List UInt8) :
    (device.offer bytes).held.size = device.held.size + bytes.length := by
  rw [← Array.length_toList, held_offer h, List.length_append, Array.length_toList]

/-- What a device without limits takes on top does not change its first bytes. -/
theorem Fills.offer (h : Fills room device device') (bytes : List UInt8) :
    Fills room (device.offer bytes) device' := by
  obtain ⟨hunlimited, hmore, hheld⟩ := h
  have hoffer := held_offer hunlimited bytes
  have hle : room ≤ device.held.toList.length := by
    rw [Array.length_toList]
    omega
  refine ⟨hunlimited, ?_, ?_⟩
  · rw [size_offer hunlimited]
    omega
  · rw [hoffer, List.take_append_of_le_length hle, hheld]

/-- A device with enough room takes what a device without limits takes. -/
theorem write_withRoom (h : device.room = none) (hfits : device.held.size + bytes.length ≤ room) :
    (device.withRoom room refuses).write bytes =
      (.ok (), (device.offer bytes).withRoom room refuses) := by
  have hfree : bytes.length ≤ room - device.held.size := by omega
  have htake : bytes.take (room - device.held.size) = bytes := List.take_of_length_le hfree
  simp [write, withRoom, Device.offer, keep, h, hfree, htake]

/-- One with too little room fails, and keeps what fits. -/
theorem write_withRoom_of_lt (h : device.room = none) (hheld : device.held.size ≤ room)
    (hlong : room < device.held.size + bytes.length) :
    ∃ filled, (device.withRoom room refuses).write bytes = (.error (lack refuses), filled) ∧
      Fills room (device.offer bytes) filled := by
  have hfree : ¬bytes.length ≤ room - device.held.size := by omega
  have hoffer := held_offer h bytes
  refine ⟨_, by simp only [write, withRoom, hfree, if_false]; rfl, h, ?_, ?_⟩
  · rw [size_offer h]
    exact hlong
  · have hle : device.held.toList.length ≤ room := by
      rw [Array.length_toList]
      exact hheld
    simp [hoffer, List.take_append, List.take_of_length_le hle]

end Device

namespace Sink

/-- The sink in front of another device. -/
def withDevice (sink : Sink) (device : Device) : Sink :=
  { sink with device }

/-- The sink after the device was offered the bytes of a text. -/
def pass (sink : Sink) (text : String) (device : Device) : Except RenderError Unit × Sink :=
  match device.write (sink.encoding.encode text) with
  | (.ok (), device) =>
      (.ok (), { sink with device, written := sink.written + sink.encoding.encodedSize text })
  | (.error cause, device) => (.error (.device cause), { sink with device })

variable {sink : Sink} {room : Nat}

/-- Whether a text gets to the device does not depend on the device. -/
theorem write_withDevice (sink : Sink) (text : String) :
    (∃ result after, ∀ device,
      (sink.withDevice device).write text = (result, Sink.withDevice after device)) ∨
    ∀ device, (sink.withDevice device).write text = sink.pass text device := by
  by_cases hempty : text.isEmpty = true
  · refine .inl ⟨.ok (), sink, fun device => ?_⟩
    rw [write, if_pos hempty]
  · by_cases hreached : sink.limitReached = true
    · refine .inl ⟨.error (.outputLimit sink.maxSize), sink, fun device => ?_⟩
      simp [write, withDevice, hempty, hreached]
    · by_cases hlong : (0 < sink.maxSize && decide (sink.maxSize < sink.written +
          sink.encoding.encodedSize text)) = true
      · refine .inl ⟨.error (.outputLimit sink.maxSize), { sink with limitReached := true },
          fun device => ?_⟩
        simp only [write, withDevice, hempty, hreached, hlong, if_true]
        rfl
      · refine .inr fun device => ?_
        simp only [write, withDevice, hempty, hreached, hlong, pass]
        rfl

/-- A text does not get to the device, is taken by it, or is too long for its room. -/
theorem write_withRoom (h : sink.device.room = none) (hheld : sink.device.held.size ≤ room)
    (refuses : Bool) (text : String) :
    let device := sink.device.withRoom room refuses
    let after := (sink.write text).2
    ((sink.withDevice device).write text =
        ((sink.write text).1, after.withDevice (after.device.withRoom room refuses)) ∧
      after.device.room = none ∧ after.device.held.size ≤ room) ∨
    ∃ filled, (sink.withDevice device).write text =
        (.error (.device (Device.lack refuses)), filled) ∧
      Device.Fills room after.device filled.device := by
  intro device after
  have hsame : sink.withDevice sink.device = sink := rfl
  rcases sink.write_withDevice text with ⟨result, other, hwrite⟩ | hpass
  · have hfree := hwrite sink.device
    rw [hsame] at hfree
    have hafter : after = other.withDevice sink.device := congrArg Prod.snd hfree
    rw [hwrite, hfree, hafter]
    exact .inl ⟨rfl, h, hheld⟩
  · have hfree := hpass sink.device
    have hoffer := sink.device.write_eq_offer (sink.encoding.encode text)
    have htaken : sink.device.write (sink.encoding.encode text) =
        (.ok (), sink.device.offer (sink.encoding.encode text)) := by
      rw [← hoffer]
      simp [Device.write, h]
    rw [hsame, pass, htaken] at hfree
    have hafter : after.device = sink.device.offer (sink.encoding.encode text) :=
      congrArg (Sink.device ∘ Prod.snd) hfree
    rw [hpass, pass, hafter]
    by_cases hfits : sink.device.held.size + (sink.encoding.encode text).length ≤ room
    · have hroom : (sink.device.offer (sink.encoding.encode text)).held.size ≤ room := by
        rw [Device.size_offer h]
        exact hfits
      rw [Device.write_withRoom h hfits]
      refine .inl ⟨?_, h, hroom⟩
      change _ = ((sink.write text).1, (sink.write text).2.withDevice _)
      rw [hfree]
      rfl
    · obtain ⟨filled, hfilled, hfills⟩ :=
        Device.write_withRoom_of_lt h hheld (Nat.lt_of_not_le hfits)
      rw [hfilled]
      exact .inr ⟨_, rfl, hfills⟩

end Sink

namespace Run

/-- The run in front of a device with room for so many bytes. -/
def withRoom (run : Run) (room : Nat) (refuses : Bool) : Run :=
  { run with sink := run.sink.withDevice (run.sink.device.withRoom room refuses) }

/-- The first run has a device without limits, and the second only differs in having
room for so many bytes, which are not used up. -/
structure HasRoom (room : Nat) (refuses : Bool) (run run' : Run) : Prop where
  same : run' = run.withRoom room refuses
  unlimited : run.sink.device.room = none
  held : run.sink.device.held.size ≤ room

/-- The second run has stopped when its device was full. -/
def Filled (room : Nat) (run run' : Run) : Prop :=
  Device.Fills room run.sink.device run'.sink.device

theorem withRoom_enter (run : Run) (bracket : Bracket) (room : Nat) (refuses : Bool) :
    (run.withRoom room refuses).enter bracket = (run.enter bracket).withRoom room refuses := by
  cases bracket <;> rfl

theorem withRoom_leave (run : Run) (bracket : Bracket) (room : Nat) (refuses : Bool) :
    (run.withRoom room refuses).leave bracket = (run.leave bracket).withRoom room refuses := by
  cases bracket <;> rfl

/-- What is on a device without limits stays there. -/
theorem Filled.handle {room : Nat} {run run' : Run} (h : Filled room run run') (e : Event) :
    Filled room (run.handle e).2 run' := by
  cases e with
  | write text =>
      have hdevice := (run.sink.device_write none text).2
      change Device.Fills room (run.sink.write text).2.device run'.sink.device
      rw [hdevice]
      exact Device.Fills.offer h _
  | poll | look | cancel | declare => exact h

theorem lockstep_hasRoom (room : Nat) (refuses : Bool) :
    Lockstep (HasRoom room refuses) (Filled room) (.device (Device.lack refuses)) where
  declared h := by
    rw [h.same]
    rfl
  stack h := by
    rw [h.same]
    rfl
  handle {run run'} e h := by
    obtain ⟨rfl, hunlimited, hheld⟩ := h
    cases e with
    | write text =>
        rcases Sink.write_withRoom hunlimited hheld refuses text with
          ⟨hsame, hunlimited', hheld'⟩ | ⟨filled, hfull, hfills⟩
        · have hhandle : (run.withRoom room refuses).handle (.write text) =
              ((run.handle (.write text)).1,
                (run.handle (.write text)).2.withRoom room refuses) := by
            simp only [Run.handle, withRoom, hsame]
          rw [hhandle]
          exact .inl ⟨rfl, rfl, hunlimited', hheld'⟩
        · have hhandle : (run.withRoom room refuses).handle (.write text) =
              (.error (.device (Device.lack refuses)), { run with sink := filled }) := by
            simp only [Run.handle, withRoom, hfull]
          rw [hhandle]
          exact .inr ⟨rfl, hfills⟩
    | poll | look | cancel | declare => exact .inl ⟨rfl, rfl, hunlimited, hheld⟩
  enter {run run'} bracket h := by
    obtain ⟨rfl, hunlimited, hheld⟩ := h
    rw [withRoom_enter]
    rw [← sink_enter run bracket] at hunlimited hheld
    exact ⟨rfl, hunlimited, hheld⟩
  leave {run run'} bracket h := by
    obtain ⟨rfl, hunlimited, hheld⟩ := h
    rw [withRoom_leave]
    rw [← sink_leave run bracket] at hunlimited hheld
    exact ⟨rfl, hunlimited, hheld⟩
  handleOn e h := h.handle e
  enterOn bracket h := by
    rw [Filled, sink_enter]
    exact h
  leaveOn bracket h := by
    rw [Filled, sink_leave]
    exact h
  leaveStopped bracket h := by
    rw [Filled, sink_leave]
    exact h

end Run

namespace Template

/-- A new device with room for so many bytes. -/
def roomFor (room : Nat) (refuses : Bool) : Device :=
  ⟨some room, refuses, false, #[]⟩

/-- How a rendering to a device that may run out of room differs from one to a device
that does not: not at all if the bytes have room, and else it fails, and leaves the
first bytes. -/
structure ExactPrefix (room : Nat) (refuses : Bool) (free limited : Rendering) : Prop where
  fits : free.device.held.size ≤ room →
    limited.result = free.result ∧ limited.device.held = free.device.held ∧
      limited.signal = free.signal ∧ limited.unresolved = free.unresolved
  fails : room < free.device.held.size →
    limited.result = .error (.device (Device.lack refuses)) ∧
      limited.device.held.toList = free.device.held.toList.take room

variable {room : Nat} {refuses : Bool}

/-- A render that does not start leaves nothing on either device. -/
theorem exactPrefix_refused {free limited : Rendering} (hresult : limited.result = free.result)
    (hsignal : limited.signal = free.signal) (hunresolved : limited.unresolved = free.unresolved)
    (hfree : free.device.held = #[]) (hlimited : limited.device.held = #[]) :
    ExactPrefix room refuses free limited := by
  constructor
  · intro _
    exact ⟨hresult, hlimited.trans hfree.symm, hsignal, hunresolved⟩
  · intro hlong
    simp [hfree] at hlong

theorem finish_withRoom (result : Except RenderError Unit) (run : Run) (room : Nat)
    (refuses : Bool) : finish result (run.withRoom room refuses) = finish result run := by
  rcases result with error | _
  · cases error <;> rfl
  · rfl

theorem exactPrefix_report {done done' : Except RenderError Unit × Run}
    (h : Compare (Run.HasRoom room refuses) (Run.Filled room) (.device (Device.lack refuses))
      done done') : ExactPrefix room refuses (report done) (report done') := by
  obtain ⟨result, run⟩ := done
  obtain ⟨result', run'⟩ := done'
  rcases h with ⟨hresult, hroom⟩ | ⟨hresult, hfills⟩
  · obtain rfl : result' = result := hresult
    obtain rfl : run' = run.withRoom room refuses := hroom.same
    constructor
    · intro _
      exact ⟨finish_withRoom result' run room refuses, rfl, rfl, rfl⟩
    · intro hlong
      exact absurd hroom.held (Nat.not_le_of_lt hlong)
  · obtain rfl : result' = .error (.device (Device.lack refuses)) := hresult
    constructor
    · intro hfits
      exact absurd hfills.more (Nat.not_lt_of_le hfits)
    · intro _
      exact ⟨rfl, hfills.held⟩

theorem renderUnder_roomFor {template : Template} (h : template.PassesErrors) (data : Value)
    (room : Nat) (refuses : Bool) (signal : Signal) :
    ExactPrefix room refuses (template.renderUnder data .memory signal)
      (template.renderUnder data (roomFor room refuses) signal) := by
  cases hvalid : template.isValid with
  | false =>
      rw [renderUnder_invalid hvalid, renderUnder_invalid hvalid]
      exact exactPrefix_refused rfl rfl rfl rfl rfl
  | true =>
      rcases hpoll : signal.check with ⟨error | _, signal'⟩
      · rw [renderUnder_stopped hvalid hpoll, renderUnder_stopped hvalid hpoll]
        exact exactPrefix_refused rfl rfl rfl rfl rfl
      · have hstart : Run.HasRoom room refuses (template.start .memory signal')
            (template.start (roomFor room refuses) signal') := ⟨rfl, rfl, Nat.zero_le _⟩
        rw [renderUnder_valid hvalid hpoll, renderUnder_valid hvalid hpoll,
          ← (strict_script h data (Session.obeys_new _ _)).1,
          ← (strict_script h data (Session.obeys_new _ _)).1]
        exact exactPrefix_report ((Run.lockstep_hasRoom room refuses).perform _
          (fun _ _ _ => Script.isStrict_strict _) hstart)

/-- A device that runs out of room is left with the first of the bytes that a render
writes otherwise, as many as it has room for, and the render fails. If it has room for
all of them, it makes no difference. So it is where the device is opened first. If there
are items of providers, errors are taken to end their recipes. -/
theorem render_to_full_device (template : Template) (hpasses : template.PassesErrors)
    (data : Value) (room : Nat) (refuses : Bool) (caller : Option Bool) (clock : Clock) :
    ExactPrefix room refuses (template.render data .memory caller clock)
      (template.render data (roomFor room refuses) caller clock) ∧
    ExactPrefix room refuses (template.renderOpening data (fun _ => .ok .memory) caller clock)
      (template.renderOpening data (fun _ => .ok (roomFor room refuses)) caller clock) := by
  have hrender := renderUnder_roomFor hpasses data room refuses
    (.new caller template.options.settings.timeLimit clock)
  refine ⟨hrender, ?_⟩
  unfold renderOpening
  cases template.isValid with
  | false => exact exactPrefix_refused rfl rfl rfl rfl rfl
  | true => exact hrender

/-- Of `Hello World!` eight bytes are left on a device that has room for them. -/
theorem greeting_full_device :
    let data := Value.map [("name", .string "World")]
    let clock := Clock.still
    let free := greeting.render data .memory none clock
    let limited := greeting.render data (roomFor 8 true) none clock
    greeting.PassesErrors ∧ 8 < free.device.held.size ∧ limited.result = .error (.device .refused) ∧
      limited.device.held = "Hello Wo".toUTF8.data := by
  intro data clock free limited
  have hpasses : greeting.PassesErrors := passesErrors_of_stock (List.nil_subset _)
  have hlong : 8 < free.device.held.size := by
    decide +kernel
  have hexact : ExactPrefix 8 true free limited :=
    (render_to_full_device greeting hpasses data 8 true none clock).1
  have hfails := hexact.fails hlong
  have htake : free.device.held.toList.take 8 = "Hello Wo".toUTF8.data.toList := by
    decide +kernel
  refine ⟨hpasses, hlong, hfails.1, ?_⟩
  apply Array.ext'
  rw [hfails.2, htake]

end Template

end Stencil
