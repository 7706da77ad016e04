import Mathlib.Order.Bounds.Basic
import Stencil.Proofs.Render.Trace
import Stencil.Proofs.Text.Encoding

/-!
A sink with a size limit beside one without. They agree as long as the texts fit;
then the one with the limit stops and has taken the longest beginning of the
texts that fits.
-/

namespace Stencil

/-- The first texts that fit into so many bytes. -/
def Encoding.fitting (encoding : Encoding) : Nat → List String → List String
  | _, [] => []
  | room, text :: texts =>
      if (encoding.encode text).length ≤ room then
        text :: encoding.fitting (room - (encoding.encode text).length) texts
      else []

namespace Encoding

variable (encoding : Encoding)

theorem fitting_append {room : Nat} {first : List String}
    (hfits : (encoding.encodeAll first).length ≤ room) (second : List String) :
    encoding.fitting room (first ++ second) =
      first ++ encoding.fitting (room - (encoding.encodeAll first).length) second := by
  induction first generalizing room with
  | nil => rfl
  | cons text first ih =>
      rw [encodeAll_cons, List.length_append] at hfits
      have htext : (encoding.encode text).length ≤ room := by omega
      rw [List.cons_append, fitting, if_pos htext, ih (by omega), encodeAll_cons,
        List.length_append, Nat.sub_sub]
      rfl

/-- Texts that do not all fit are cut before the end, whatever follows them. -/
theorem fitting_append_of_lt {room : Nat} {first : List String}
    (hlong : room < (encoding.encodeAll first).length) (second : List String) :
    encoding.fitting room (first ++ second) = encoding.fitting room first := by
  induction first generalizing room with
  | nil => simp [encodeAll] at hlong
  | cons text first ih =>
      rw [encodeAll_cons, List.length_append] at hlong
      rw [List.cons_append, fitting, fitting]
      split
      · rw [ih (by omega)]
      · rfl

theorem fitting_handed_of_lt {room : Nat} {e : Event}
    (hlong : room < (encoding.encodeAll e.handed).length) (texts : List String) :
    encoding.fitting room (e.handed ++ texts) = [] := by
  rw [fitting_append_of_lt encoding hlong]
  rcases e with _ | text | _ | _ | _
  case write =>
    by_cases hempty : text.isEmpty = true
    · rw [Event.handed_empty hempty] at hlong ⊢
      rfl
    · rw [Event.handed_nonempty hempty, encodeAll, List.flatMap_singleton] at hlong
      rw [Event.handed_nonempty hempty, fitting, if_neg (by omega)]
  all_goals rfl

/-- The texts that fit are the longest beginning within the room. -/
theorem fitting_isGreatest (room : Nat) (texts : List String) :
    ∃ count, encoding.fitting room texts = texts.take count ∧
      IsGreatest {j | j ≤ texts.length ∧ (encoding.encodeAll (texts.take j)).length ≤ room}
        count := by
  induction texts generalizing room with
  | nil =>
      refine ⟨0, rfl, ⟨Nat.le_refl _, Nat.zero_le _⟩, ?_⟩
      intro j hj
      exact hj.1
  | cons text texts ih =>
      rw [fitting]
      split
      · rename_i htext
        obtain ⟨count, htake, ⟨hcount, hfits⟩, hmost⟩ :=
          ih (room - (encoding.encode text).length)
        refine ⟨count + 1, by rw [htake, List.take_succ_cons], ⟨?_, ?_⟩, ?_⟩
        · rw [List.length_cons]
          omega
        · rw [List.take_succ_cons, encodeAll_cons, List.length_append]
          omega
        · rintro j ⟨hj, hroom⟩
          cases j with
          | zero => exact Nat.zero_le _
          | succ j =>
              rw [List.length_cons] at hj
              rw [List.take_succ_cons, encodeAll_cons, List.length_append] at hroom
              have hle : j ≤ count := hmost ⟨by omega, by omega⟩
              omega
      · rename_i htext
        refine ⟨0, rfl, ⟨Nat.zero_le _, Nat.zero_le _⟩, ?_⟩
        rintro j ⟨hj, hroom⟩
        cases j with
        | zero => exact Nat.le_refl _
        | succ j =>
            rw [List.take_succ_cons, encodeAll_cons, List.length_append] at hroom
            omega

end Encoding

namespace Sink

/-- The sink has no limit and its device takes everything. -/
structure IsOpen (sink : Sink) : Prop where
  noLimit : sink.maxSize = 0
  notReached : sink.limitReached = false
  room : sink.device.room = none

/-- The sink after it has taken texts. -/
def after (sink : Sink) (texts : List String) : Sink :=
  { sink with
    device := { sink.device with held := sink.device.held ++ sink.encoding.encodeAll texts }
    written := sink.written + (sink.encoding.encodeAll texts).length }

def withMax (sink : Sink) (limit : Nat) : Sink :=
  { sink with maxSize := limit }

/-- The sink when the limit has stopped a run. -/
def stoppedAt (sink : Sink) (limit : Nat) : Sink :=
  { sink with maxSize := limit, limitReached := true }

variable {sink : Sink}

theorem after_nil (sink : Sink) : sink.after [] = sink := by
  simp [after, Encoding.encodeAll]

theorem after_after (sink : Sink) (first second : List String) :
    (sink.after first).after second = sink.after (first ++ second) := by
  have hheld (held : Array UInt8) (bytes bytes' : List UInt8) :
      held ++ bytes ++ bytes' = held ++ (bytes ++ bytes') := by
    apply Array.ext'
    simp
  simp only [after, Encoding.encodeAll_append, hheld, List.length_append, Nat.add_assoc]

@[simp] theorem written_after (sink : Sink) (texts : List String) :
    (sink.after texts).written = sink.written + (sink.encoding.encodeAll texts).length := rfl

@[simp] theorem encoding_after (sink : Sink) (texts : List String) :
    (sink.after texts).encoding = sink.encoding := rfl

theorem IsOpen.after (h : sink.IsOpen) (texts : List String) : (sink.after texts).IsOpen :=
  ⟨h.noLimit, h.notReached, h.room⟩

/-- The texts can be written under a limit, after what was written before. -/
def Fits (sink : Sink) (limit : Nat) (texts : List String) : Prop :=
  sink.written + (sink.encoding.encodeAll texts).length ≤ limit

/-- The sink when a limit has stopped these texts, of which the first that fit
were written. -/
def cut (sink : Sink) (limit : Nat) (texts : List String) : Sink :=
  (sink.after (sink.encoding.fitting (limit - sink.written) texts)).stoppedAt limit

section

variable {limit : Nat} {first : List String}

theorem fits_append {second : List String} :
    sink.Fits limit (first ++ second) ↔ (sink.after first).Fits limit second := by
  rw [Fits, Fits, written_after, encoding_after, Encoding.encodeAll_append, List.length_append,
    Nat.add_assoc]

theorem Fits.left {second : List String} (h : sink.Fits limit (first ++ second)) :
    sink.Fits limit first := by
  unfold Fits at h ⊢
  rw [Encoding.encodeAll_append, List.length_append] at h
  omega

theorem cut_append (h : sink.Fits limit first) (second : List String) :
    sink.cut limit (first ++ second) = (sink.after first).cut limit second := by
  unfold Fits at h
  have hroom : (sink.encoding.encodeAll first).length ≤ limit - sink.written := by omega
  rw [cut, cut, written_after, encoding_after, Sink.after_after,
    Encoding.fitting_append _ hroom, Nat.sub_sub]

/-- Nothing that comes later is written, even if it is short. -/
theorem cut_append_of_not_fits (hlimit : sink.written ≤ limit) (h : ¬sink.Fits limit first)
    (second : List String) : sink.cut limit (first ++ second) = sink.cut limit first := by
  unfold Fits at h
  have hroom : limit - sink.written < (sink.encoding.encodeAll first).length := by omega
  rw [cut, cut, Encoding.fitting_append_of_lt _ hroom]

theorem cut_handed (hlimit : sink.written ≤ limit) {e : Event}
    (h : ¬sink.Fits limit e.handed) (second : List String) :
    sink.cut limit (e.handed ++ second) = sink.stoppedAt limit := by
  unfold Fits at h
  have hroom : limit - sink.written < (sink.encoding.encodeAll e.handed).length := by omega
  rw [cut, Encoding.fitting_handed_of_lt _ hroom, after_nil]

end

theorem write_open (h : sink.IsOpen) (text : String) :
    sink.write text = (.ok (), sink.after (Event.write text).handed) := by
  obtain ⟨hmax, hreached, hroom⟩ := h
  by_cases hempty : text.isEmpty = true
  · rw [Event.handed_empty hempty, after_nil, write, if_pos hempty]
  · rw [Event.handed_nonempty hempty, write, if_neg hempty]
    simp only [hmax, hreached, Nat.lt_irrefl, decide_false, Bool.false_and, Bool.false_eq_true,
      if_false, Device.write, hroom]
    simp [after, Encoding.encodeAll, Encoding.encodedSize_eq, hmax, hreached, hroom]

theorem write_withMax (h : sink.IsOpen) {limit : Nat} {text : String}
    (hfits : sink.Fits limit (Event.write text).handed) :
    (sink.withMax limit).write text =
      (.ok (), (sink.after (Event.write text).handed).withMax limit) := by
  obtain ⟨hmax, hreached, hroom⟩ := h
  by_cases hempty : text.isEmpty = true
  · rw [Event.handed_empty hempty, after_nil, write, if_pos hempty]
  · rw [Event.handed_nonempty hempty] at hfits ⊢
    rw [Fits, Encoding.encodeAll, List.flatMap_singleton] at hfits
    have hno : ¬limit < sink.written + (sink.encoding.encode text).length := by omega
    rw [write, if_neg hempty]
    simp only [withMax, hreached, Encoding.encodedSize_eq, hno, decide_false, Bool.and_false,
      Bool.false_eq_true, if_false, Device.write, hroom]
    simp [after, Encoding.encodeAll, hreached, hroom]

theorem write_withMax_of_not_fits (h : sink.IsOpen) {limit : Nat} {text : String}
    (hpositive : 0 < limit) (hlimit : sink.written ≤ limit)
    (hlong : ¬sink.Fits limit (Event.write text).handed) :
    (sink.withMax limit).write text =
      (.error (.outputLimit limit), sink.stoppedAt limit) := by
  by_cases hempty : text.isEmpty = true
  · rw [Event.handed_empty hempty] at hlong
    exact absurd hlimit hlong
  · rw [Event.handed_nonempty hempty, Fits, Encoding.encodeAll, List.flatMap_singleton,
      Nat.not_le] at hlong
    rw [write, if_neg hempty]
    simp only [withMax, h.notReached, Encoding.encodedSize_eq, hlong, hpositive, decide_true,
      Bool.and_true, Bool.false_eq_true, if_false, if_true]
    rfl

end Sink

end Stencil
