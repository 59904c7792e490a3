import Hfior.Input.Decode
import Mathlib.Data.List.Forall2

/-!
# A stream of frames

`splitFrames` cuts a stream of events at its reports, and
`processInput_frames` says that every record is the record of its frame, and
that the accumulator holds the frame that is not complete.
-/

namespace Hfior

/-! ## The frames of a stream -/

/-- A frame: the mask that it began with, and its events. -/
structure Frame where
  buttons : UInt16
  events : List InputEvent
deriving DecidableEq, Repr

/-- The frame behind a report. -/
def Frame.next (frame : Frame) : Frame := ⟨buttonsAfter frame.buttons frame.events, []⟩

/-- The frame with one event more. -/
def Frame.add (frame : Frame) (e : InputEvent) : Frame :=
  ⟨frame.buttons, frame.events ++ [e]⟩

/-- The complete frames of a stream, and the frame behind the last report,
where some events of the first frame are there already. -/
def splitFrames (frame : Frame) : List InputEvent → List Frame × Frame
  | [] => ([], frame)
  | e :: es =>
    if e.isReport then (frame :: (splitFrames frame.next es).1, (splitFrames frame.next es).2)
    else splitFrames (frame.add e) es

/-- The records of some calls of `publish_record`. -/
def recordsOf (ps : List Publication) : List Record :=
  ps.map fun p => p.attempt.record

/-- The record of a frame, whatever the clocks and its number. -/
def IsRecordOf (frame : Frame) (record : Record) : Prop :=
  ∃ time nowNs sequence, record =
    { frameRecord (frameAfter frame.buttons 0 frame.events) time nowNs with
      sequence := sequence }

/-- The accumulator holds the events of the frame so far. -/
def Accumulates (f : FrameAccumulator) (frame : Frame) : Prop :=
  ∃ timestampNs, f = frameAfter frame.buttons timestampNs frame.events

theorem accumulates_cleanFrame (buttons : UInt16) :
    Accumulates (cleanFrame buttons) ⟨buttons, []⟩ :=
  ⟨0, (frameAfter_nil buttons 0).symm⟩

section
variable {b : InputBridge} {frame : Frame}

theorem Accumulates.add {f : FrameAccumulator} (h : Accumulates f frame)
    (e : InputEvent) : Accumulates (accumulate f e) (frame.add e) := by
  obtain ⟨timestampNs, rfl⟩ := h
  exact ⟨timestampNs, accumulate_frameAfter _ _ _ _⟩

/-- A report publishes the record of its frame and begins the next one. -/
theorem processInputEvent_report (h : Accumulates b.frame frame) {reading : Reading}
    (hreport : reading.event.isReport = true) :
    ∃ p, (processInputEvent b reading).1 = some p ∧ IsRecordOf frame p.attempt.record ∧
      Accumulates (processInputEvent b reading).2.frame frame.next := by
  obtain ⟨timestampNs, hframe⟩ := h
  have haccumulate : accumulate b.frame reading.event =
      { frameAfter frame.buttons timestampNs frame.events with
        timestampNs := lastTimestamp timestampNs (frame.events ++ [reading.event]) } := by
    rw [hframe, accumulate_frameAfter, frameAfter_report _ _ hreport]
  rw [processInputEvent]
  simp only [hreport, if_true, takeEvent, haccumulate]
  exact ⟨_, rfl, ⟨timevalToNs reading.event.time, reading.env.nowNs, _, rfl⟩,
    accumulates_cleanFrame _⟩

/-- Every record is the record of its frame, and the accumulator holds the
frame that is not complete. -/
theorem processInput_frames (h : Accumulates b.frame frame) (readings : List Reading) :
    List.Forall₂ IsRecordOf (splitFrames frame (eventsOf readings)).1
        (recordsOf (processInput b readings).1) ∧
      Accumulates (processInput b readings).2.frame
        (splitFrames frame (eventsOf readings)).2 := by
  induction readings generalizing b frame with
  | nil => exact ⟨.nil, h⟩
  | cons reading readings ih =>
    rw [eventsOf, List.map_cons, ← eventsOf, splitFrames, processInput]
    cases hreport : reading.event.isReport with
    | true =>
      obtain ⟨p, hp, hrecord, hnext⟩ := processInputEvent_report h hreport
      obtain ⟨hrecords, hpending⟩ := ih hnext
      simp only [hp, if_true, recordsOf, Option.toList_some, List.map_append,
        List.map_cons, List.map_nil]
      exact ⟨.cons hrecord hrecords, hpending⟩
    | false =>
      have hadd : Accumulates (processInputEvent b reading).2.frame
          (frame.add reading.event) := by
        simp only [processInputEvent, hreport, takeEvent]
        exact h.add reading.event
      have hnone : (processInputEvent b reading).1 = none := by
        simp [processInputEvent, hreport]
      simp only [hnone, Bool.false_eq_true, if_false, Option.toList_none, List.nil_append]
      exact ih hadd

end

end Hfior
