import Stencil.Proofs.Render.Trace
import Stencil.Proofs.Text.Encoding

/-!
What reaches the device of a render: the texts that the size limit did not
refuse, one after another, as far as the device has room for them.
-/

namespace Stencil

/-- The text of an event that the size limit did not refuse, if it has one. -/
def Moment.offered? : Moment → Option String
  | ⟨_, .write _, .error (.outputLimit _)⟩ => none
  | ⟨_, .write text, _⟩ => some text
  | _ => none

/-- The texts that are offered to the device. -/
def offeredTexts (moments : List Moment) : List String :=
  moments.filterMap Moment.offered?

theorem offeredTexts_append (first second : List Moment) :
    offeredTexts (first ++ second) = offeredTexts first ++ offeredTexts second :=
  List.filterMap_append

namespace Device

/-- As many of the bytes as there is room for. -/
def keep (device : Device) (bytes : List UInt8) : List UInt8 :=
  match device.room with
  | none => bytes
  | some room => bytes.take (room - device.held.size)

/-- The device after it was offered bytes. -/
def offer (device : Device) (bytes : List UInt8) : Device :=
  { device with held := device.held ++ device.keep bytes }

variable {device : Device}

theorem write_eq_offer (device : Device) (bytes : List UInt8) :
    (device.write bytes).2 = device.offer bytes := by
  cases hroom : device.room with
  | none => simp only [write, offer, keep, hroom]
  | some room =>
      simp only [write, offer, keep, hroom]
      split <;> rfl

theorem offer_nil (device : Device) : device.offer [] = device := by
  have hkeep : device.keep [] = [] := by
    unfold keep
    split
    · rfl
    · exact List.take_nil
  rw [offer, hkeep]
  simp

theorem offer_offer (device : Device) (first second : List UInt8) :
    (device.offer first).offer second = device.offer (first ++ second) := by
  have hkeep : device.keep (first ++ second) =
      device.keep first ++ (device.offer first).keep second := by
    cases hroom : device.room with
    | none => simp only [keep, offer, hroom]
    | some room =>
        have hsize : (device.held ++ first.take (room - device.held.size)).size =
            device.held.size + min (room - device.held.size) first.length := by
          rw [← Array.length_toList]
          simp
        have hleft : room - (device.held ++ first.take (room - device.held.size)).size =
            room - device.held.size - first.length := by
          omega
        simp only [keep, offer, hroom, List.take_append, hleft]
  have hheld : device.held ++ device.keep first ++ (device.offer first).keep second =
      device.held ++ (device.keep first ++ (device.offer first).keep second) := by
    apply Array.ext'
    simp
  change { device with
    held := device.held ++ device.keep first ++ (device.offer first).keep second } = _
  rw [hheld, ← hkeep]
  rfl

end Device

/-- A sink offers its device the texts that its limit does not refuse. -/
theorem Sink.device_write (sink : Sink) (item : Option Item) (text : String) :
    (sink.write text).2.encoding = sink.encoding ∧
    (sink.write text).2.device = sink.device.offer (sink.encoding.encodeAll
      (offeredTexts [⟨item, .write text, (sink.write text).1⟩])) := by
  have hnone : sink.device = sink.device.offer (sink.encoding.encodeAll []) :=
    (Device.offer_nil _).symm
  have hone : sink.encoding.encodeAll [text] = sink.encoding.encode text :=
    List.append_nil _
  unfold write
  split
  · rename_i hempty
    refine ⟨rfl, ?_⟩
    obtain rfl := String.isEmpty_iff.mp hempty
    change _ = sink.device.offer (sink.encoding.encodeAll [""])
    rw [hone, Encoding.encode_empty, Device.offer_nil]
  · split
    · exact ⟨rfl, hnone⟩
    · dsimp only
      split
      · exact ⟨rfl, hnone⟩
      · have hwrite := sink.device.write_eq_offer (sink.encoding.encode text)
        split
        · rename_i device hdevice
          rw [hdevice] at hwrite
          refine ⟨rfl, ?_⟩
          change device = sink.device.offer (sink.encoding.encodeAll [text])
          rw [hone, ← hwrite]
        · rename_i cause device hdevice
          rw [hdevice] at hwrite
          refine ⟨rfl, ?_⟩
          change device = sink.device.offer (sink.encoding.encodeAll [text])
          rw [hone, ← hwrite]

namespace Script

/-- What a run leaves on the device are the texts that were offered to it. -/
theorem device_perform (script : Script) (item : Option Item) (run : Run) :
    (script.perform run).2.sink.encoding = run.sink.encoding ∧
    (script.perform run).2.sink.device = run.sink.device.offer
      (run.sink.encoding.encodeAll (offeredTexts (script.trace item run))) := by
  apply perform_induction (R := fun run moments run' =>
    run'.sink.encoding = run.sink.encoding ∧ run'.sink.device = run.sink.device.offer
      (run.sink.encoding.encodeAll (offeredTexts moments)))
  · intro run
    exact ⟨rfl, (Device.offer_nil _).symm⟩
  · intro run e item
    cases e with
    | write text => exact run.sink.device_write item text
    | poll | look | cancel | declare => exact ⟨rfl, (Device.offer_nil _).symm⟩
  · intro run bracket
    rw [Run.sink_enter]
    exact ⟨rfl, (Device.offer_nil _).symm⟩
  · intro run bracket
    rw [Run.sink_leave]
    exact ⟨rfl, (Device.offer_nil _).symm⟩
  · rintro run middle last first second ⟨hencoding, hdevice⟩ ⟨hencoding', hdevice'⟩
    refine ⟨hencoding'.trans hencoding, ?_⟩
    rw [hdevice', hdevice, Device.offer_offer, hencoding, offeredTexts_append,
      Encoding.encodeAll_append]

end Script

theorem Template.device_renderUnder (template : Template) (data : Value) (device : Device)
    (signal : Signal) :
    (template.renderUnder data device signal).device = device.offer
      (template.options.settings.encoding.encode
        (String.join (offeredTexts (template.trace data device signal)))) := by
  have hnone : device = device.offer (template.options.settings.encoding.encode
      (String.join (offeredTexts []))) := by
    rw [← Encoding.encodeAll_eq]
    exact (Device.offer_nil _).symm
  cases hvalid : template.isValid with
  | false =>
      rw [renderUnder_invalid hvalid, trace_invalid hvalid]
      exact hnone
  | true =>
      rcases hpoll : signal.check with ⟨error | _, signal'⟩
      · rw [renderUnder_stopped hvalid hpoll, trace_stopped hvalid hpoll]
        exact hnone
      · rw [renderUnder_valid hvalid hpoll, trace_valid hvalid hpoll, ← Encoding.encodeAll_eq]
        exact ((template.script data).device_perform none (template.start device signal')).2

end Stencil
