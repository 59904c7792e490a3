import Hfior.Input.Stream

/-!
# Displacement that disappears

`NoSilentLoss` is the promise that no displacement disappears silently: a
record carries the totals of its frame, or it is marked as a loss.  No frame
sets the overflow flag, and `complete_frame` clamps without a mark, so
`no_silent_loss_iff` needs totals that fit the fields of the record.
-/

namespace Hfior

/-! ## The four axes -/

inductive Axis where
  | dx | dy | wheel | hwheel
deriving DecidableEq, Repr

namespace Axis

/-- The total of the events that count for this axis. -/
def counted : Axis → List InputEvent → Int
  | dx => relTotal REL_X
  | dy => relTotal REL_Y
  | wheel => wheelTotal REL_WHEEL_HI_RES REL_WHEEL
  | hwheel => wheelTotal REL_HWHEEL_HI_RES REL_HWHEEL

/-- The width of the field of a record. -/
def lo : Axis → Int
  | dx | dy => -2 ^ 31
  | wheel | hwheel => -2 ^ 15

def hi : Axis → Int
  | dx | dy => 2 ^ 31 - 1
  | wheel | hwheel => 2 ^ 15 - 1

/-- The field of a record. -/
def ofRecord : Axis → Record → Int
  | dx, record => record.dx.toInt
  | dy, record => record.dy.toInt
  | wheel, record => record.wheel.toInt
  | hwheel, record => record.hwheel.toInt

/-- The accumulator. -/
def ofFrame : Axis → FrameAccumulator → Int
  | dx, f => f.dx.toInt
  | dy, f => f.dy.toInt
  | wheel, f => f.wheel.toInt
  | hwheel, f => f.hwheel.toInt

/-- The total of the events fits the field of the record. -/
def Fits (axis : Axis) (es : List InputEvent) : Prop :=
  axis.lo ≤ axis.counted es ∧ axis.counted es ≤ axis.hi

end Axis

/-- A record that says that something is missing. -/
def lossMarked (record : Record) : Bool :=
  record.has (HFIOR_RECORD_OVERFLOW ||| HFIOR_RECORD_SYN_DROPPED)

/-! ## The promise -/

/-- The sum of an axis over the records without a loss mark. -/
def unmarkedTotal (axis : Axis) (records : List Record) : Int :=
  ((records.filter fun record => !lossMarked record).map axis.ofRecord).sum

/-- The sum of the events of an axis over the frames of these records. -/
def unmarkedEvents (axis : Axis) (frames : List Frame) (records : List Record) : Int :=
  (((frames.zip records).filter fun p => !lossMarked p.2).map fun p =>
    axis.counted p.1.events).sum

/-- No displacement disappears silently: every record carries the totals of
its frame or a loss mark, and the records without a mark and the pending
accumulator add up to the events of their frames. -/
structure NoSilentLoss (frames : List Frame) (pending : Frame) (records : List Record)
    (f : FrameAccumulator) : Prop where
  exact : List.Forall₂ (fun frame record => lossMarked record = true ∨
    ∀ axis : Axis, axis.ofRecord record = axis.counted frame.events) frames records
  totals : ∀ axis, unmarkedTotal axis records + axis.ofFrame f =
    unmarkedEvents axis frames records + axis.counted pending.events

/-! ## When it is kept -/

section
variable {frame : Frame} {record : Record} {frames : List Frame} {records : List Record}

/-- A frame never sets the overflow flag. -/
theorem lossMarked_of_isRecordOf (h : IsRecordOf frame record) :
    lossMarked record = frame.events.any (·.isDropped) := by
  obtain ⟨time, nowNs, sequence, rfl⟩ := h
  have hflags : ∀ hasButton hasDropped moved wheeled : Bool,
      (((if hasButton then HFIOR_RECORD_BUTTON else 0) |||
        (if hasDropped then HFIOR_RECORD_SYN_DROPPED else 0) |||
        (if moved then HFIOR_RECORD_MOTION else 0) |||
        (if wheeled then HFIOR_RECORD_WHEEL else 0)) &&&
          (HFIOR_RECORD_OVERFLOW ||| HFIOR_RECORD_SYN_DROPPED) != 0) = hasDropped := by
    decide
  exact hflags _ _ _ _

/-- The field of a record is the clamped total, in 64 bits. -/
theorem ofRecord_of_isRecordOf (h : IsRecordOf frame record) (axis : Axis) :
    axis.ofRecord record =
      clampTo axis.lo axis.hi (Int64.ofInt (axis.counted frame.events)).toInt := by
  obtain ⟨time, nowNs, sequence, rfl⟩ := h
  cases axis with
  | dx => exact clampToInt32_toInt _
  | dy => exact clampToInt32_toInt _
  | wheel => exact clampToInt16_toInt _
  | hwheel => exact clampToInt16_toInt _

/-- A record carries the total exactly when the total fits. -/
theorem ofRecord_eq_iff (h : IsRecordOf frame record) (axis : Axis) :
    axis.ofRecord record = axis.counted frame.events ↔ axis.Fits frame.events := by
  rw [ofRecord_of_isRecordOf h, Axis.Fits]
  have hrange : -2 ^ 63 ≤ axis.lo ∧ axis.lo ≤ axis.hi ∧ axis.hi < 2 ^ 63 := by
    cases axis <;> decide
  generalize axis.counted frame.events = n
  constructor
  · intro heq
    unfold clampTo at heq
    omega
  · rintro ⟨hlo, hhi⟩
    rw [Int64.toInt_ofInt_of_le (by omega) (by omega)]
    exact (clampTo_eq_self hrange.2.1).2 ⟨hlo, hhi⟩

/-- Every record is marked or exact if every frame has a `SYN_DROPPED` or
fits. -/
theorem exact_iff (h : List.Forall₂ IsRecordOf frames records) :
    List.Forall₂ (fun frame record => lossMarked record = true ∨
      ∀ axis : Axis, axis.ofRecord record = axis.counted frame.events) frames records ↔
    ∀ frame ∈ frames, frame.events.any (·.isDropped) = true ∨
      ∀ axis : Axis, axis.Fits frame.events := by
  induction h with
  | nil => simp
  | cons hrecord _ ih =>
    rw [List.forall₂_cons, ih, lossMarked_of_isRecordOf hrecord, List.forall_mem_cons]
    simp only [ofRecord_eq_iff hrecord]

/-- Records that are exact or marked add up to the events of their frames. -/
theorem unmarkedTotal_eq (axis : Axis)
    (h : List.Forall₂ (fun frame record => lossMarked record = true ∨
      ∀ axis : Axis, axis.ofRecord record = axis.counted frame.events) frames records) :
    unmarkedTotal axis records = unmarkedEvents axis frames records := by
  induction h with
  | nil => rfl
  | @cons frame record frames records hone _ ih =>
    simp only [unmarkedTotal, unmarkedEvents] at ih ⊢
    cases hmark : lossMarked record with
    | true => simpa [hmark] using ih
    | false =>
      have hexact : axis.ofRecord record = axis.counted frame.events := by
        rcases hone with hmarked | hexact
        · rw [hmark] at hmarked
          exact absurd hmarked Bool.false_ne_true
        · exact hexact axis
      simp [hmark, hexact, ih]

end

/-- No displacement disappears silently exactly if every frame without a
`SYN_DROPPED` has totals that fit its record, and the pending totals fit in
64 bits. -/
theorem no_silent_loss_iff {b : InputBridge} {buttons : UInt16}
    (hstart : b.frame = cleanFrame buttons) (readings : List Reading) :
    let stream := splitFrames ⟨buttons, []⟩ (eventsOf readings)
    let result := processInput b readings
    NoSilentLoss stream.1 stream.2 (recordsOf result.1) result.2.frame ↔
      (∀ frame ∈ stream.1, frame.events.any (·.isDropped) = true ∨
        ∀ axis : Axis, axis.Fits frame.events) ∧
      ∀ axis : Axis, -2 ^ 63 ≤ axis.counted stream.2.events ∧
        axis.counted stream.2.events < 2 ^ 63 := by
  have haccumulates : Accumulates b.frame ⟨buttons, []⟩ :=
    hstart ▸ accumulates_cleanFrame buttons
  obtain ⟨hrecords, timestampNs, hpending⟩ := processInput_frames haccumulates readings
  intro stream result
  have hfield : ∀ axis : Axis, axis.ofFrame result.2.frame =
      (Int64.ofInt (axis.counted stream.2.events)).toInt := by
    intro axis
    rw [hpending]
    cases axis <;> rfl
  constructor
  · rintro ⟨hexact, htotals⟩
    refine ⟨(exact_iff hrecords).1 hexact, ?_⟩
    intro axis
    have hsum := htotals axis
    rw [unmarkedTotal_eq axis hexact, hfield axis, Int.add_right_inj] at hsum
    rw [← hsum]
    exact ⟨Int64.le_toInt _, Int64.toInt_lt _⟩
  · rintro ⟨hfits, hbounds⟩
    have hexact := (exact_iff hrecords).2 hfits
    refine ⟨hexact, ?_⟩
    intro axis
    obtain ⟨hlo, hhi⟩ := hbounds axis
    rw [unmarkedTotal_eq axis hexact, hfield axis, Int64.toInt_ofInt_of_le hlo hhi]

/-- A frame with motion and both kinds of wheel events, and a pending
event. -/
def motionReadings : List Reading :=
  [quietReading (untimed EV_REL REL_X 5), quietReading (untimed EV_REL REL_WHEEL 1),
    quietReading (untimed EV_REL REL_WHEEL_HI_RES 120),
    quietReading (untimed EV_SYN SYN_REPORT 0), quietReading (untimed EV_REL REL_Y (-3))]

theorem no_silent_loss_motion :
    let stream := splitFrames ⟨0, []⟩ (eventsOf motionReadings)
    let result := processInput (freshInput 64) motionReadings
    NoSilentLoss stream.1 stream.2 (recordsOf result.1) result.2.frame := by
  refine (no_silent_loss_iff (b := freshInput 64) rfl motionReadings).2 ⟨?_, ?_⟩
  · intro frame hframe
    obtain rfl := List.mem_singleton.1 hframe
    right
    intro axis
    cases axis <;> exact ⟨by decide, by decide⟩
  · intro axis
    cases axis <;> decide

/-- Two events of the hi-res wheel that add up to 40000, and their report. -/
def wideWheelReadings : List Reading :=
  [quietReading (untimed EV_REL REL_WHEEL_HI_RES 20000),
    quietReading (untimed EV_REL REL_WHEEL_HI_RES 20000),
    quietReading (untimed EV_SYN SYN_REPORT 0)]

/-- The record of a frame with a wheel of 40000 says 32767, and no flag
marks the loss. -/
theorem wide_wheel_lost :
    let stream := splitFrames ⟨0, []⟩ (eventsOf wideWheelReadings)
    let result := processInput (freshInput 64) wideWheelReadings
    ¬ NoSilentLoss stream.1 stream.2 (recordsOf result.1) result.2.frame ∧
      (recordsOf result.1).map (fun record => (record.wheel, record.flags)) =
        [(32767, HFIOR_RECORD_WHEEL)] := by
  refine ⟨?_, by decide⟩
  rintro ⟨hexact, -⟩
  have hone : lossMarked _ = true ∨ ∀ axis : Axis, _ := (List.forall₂_cons.1 hexact).1
  rcases hone with hmarked | hcounted
  · exact absurd hmarked (by decide)
  · exact absurd (hcounted .wheel) (by decide)

end Hfior
