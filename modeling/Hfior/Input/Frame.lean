import Hfior.Input.Bridge

/-!
# What a frame decodes to

`relTotal`, `wheelTotal`, `buttonsAfter` and `hasTransition` say what the
events of a frame mean, in integers.  `frameAfter` puts them together, and
`foldl_accumulate` says that this is what `process_input_event` leaves in
the accumulator, event by event.
-/

namespace Hfior

/-! ## The meaning of a list of events -/

/-- The sum of the values of one relative axis. -/
def relTotal (code : UInt16) (es : List InputEvent) : Int :=
  ((es.filter (·.isRel code)).map (·.value.toInt)).sum

/-- The sum of a wheel axis: of its hi-res events if there are any, and of
its plain events else. -/
def wheelTotal (hires plain : UInt16) (es : List InputEvent) : Int :=
  if es.any (·.isRel hires) then relTotal hires es else relTotal plain es

/-- What one event does to the button mask. -/
def buttonStep (buttons : UInt16) (e : InputEvent) : UInt16 :=
  if e.type == EV_KEY then
    applyButton buttons (buttonBitFromLinuxCode e.code) e.value
  else buttons

/-- The button mask after the key events, in order. -/
def buttonsAfter (buttons : UInt16) (es : List InputEvent) : UInt16 :=
  es.foldl buttonStep buttons

/-- Some event changes the mask that it meets. -/
def hasTransition (buttons : UInt16) : List InputEvent → Bool
  | [] => false
  | e :: es => buttonStep buttons e != buttons || hasTransition (buttonStep buttons e) es

/-- The last time of an event that is not zero. -/
def lastTimestamp (timestampNs : UInt64) (es : List InputEvent) : UInt64 :=
  es.foldl (fun t e => if timevalToNs e.time != 0 then timevalToNs e.time else t)
    timestampNs

/-- The flags that the events set, without those of `complete_frame`. -/
def eventFlags (buttons : UInt16) (es : List InputEvent) : UInt16 :=
  (if hasTransition buttons es then HFIOR_RECORD_BUTTON else 0) |||
    (if es.any (·.isDropped) then HFIOR_RECORD_SYN_DROPPED else 0)

/-- The accumulator behind the events of a frame that began with this
mask. -/
def frameAfter (buttons : UInt16) (timestampNs : UInt64) (es : List InputEvent) :
    FrameAccumulator where
  dx := Int64.ofInt (relTotal REL_X es)
  dy := Int64.ofInt (relTotal REL_Y es)
  wheel := Int64.ofInt (wheelTotal REL_WHEEL_HI_RES REL_WHEEL es)
  hwheel := Int64.ofInt (wheelTotal REL_HWHEEL_HI_RES REL_HWHEEL es)
  buttons := buttonsAfter buttons es
  flags := eventFlags buttons es
  wheelHiresSeen := es.any (·.isRel REL_WHEEL_HI_RES)
  hwheelHiresSeen := es.any (·.isRel REL_HWHEEL_HI_RES)
  timestampNs := lastTimestamp timestampNs es

/-! ## One event more -/

section
variable (es : List InputEvent) (e : InputEvent) (code hires plain buttons : UInt16)

theorem relTotal_snoc : relTotal code (es ++ [e]) =
    relTotal code es + if e.isRel code then e.value.toInt else 0 := by
  cases h : e.isRel code <;> simp [relTotal, h]

/-- An axis without events has no displacement. -/
theorem relTotal_of_none (h : es.any (·.isRel code) = false) :
    relTotal code es = 0 := by
  have hnone : es.filter (·.isRel code) = [] := by
    rw [List.filter_eq_nil_iff]
    intro x hx
    simp only [List.any_eq_false] at h
    exact h x hx
  rw [relTotal, hnone]
  rfl

/-- A hi-res event takes back what the plain events have added, and a plain
event counts as long as there is no hi-res event. -/
theorem wheelTotal_snoc : wheelTotal hires plain (es ++ [e]) =
    if e.isRel hires then
      (if es.any (·.isRel hires) then wheelTotal hires plain es else 0) +
        e.value.toInt
    else if e.isRel plain && !es.any (·.isRel hires) then
      wheelTotal hires plain es + e.value.toInt
    else wheelTotal hires plain es := by
  unfold wheelTotal
  rw [List.any_append]
  cases hany : es.any (·.isRel hires) with
  | true => cases h : e.isRel hires <;> simp [relTotal_snoc, h]
  | false =>
    cases h : e.isRel hires with
    | true => simp [relTotal_snoc, relTotal_of_none es hires hany, h]
    | false => cases hplain : e.isRel plain <;> simp [relTotal_snoc, h, hplain]

theorem buttonsAfter_snoc : buttonsAfter buttons (es ++ [e]) =
    buttonStep (buttonsAfter buttons es) e := by
  simp [buttonsAfter]

theorem hasTransition_snoc : hasTransition buttons (es ++ [e]) =
    (hasTransition buttons es ||
      buttonStep (buttonsAfter buttons es) e != buttonsAfter buttons es) := by
  induction es generalizing buttons with
  | nil => simp [hasTransition, buttonsAfter]
  | cons x es ih =>
    simp only [List.cons_append, hasTransition, ih, buttonsAfter, List.foldl_cons,
      Bool.or_assoc]

theorem lastTimestamp_snoc (timestampNs : UInt64) :
    lastTimestamp timestampNs (es ++ [e]) =
      if timevalToNs e.time != 0 then timevalToNs e.time
      else lastTimestamp timestampNs es := by
  simp [lastTimestamp]

/-- A key without a bit changes nothing. -/
theorem applyButton_zero (value : Int32) : applyButton buttons 0 value = buttons := by
  unfold applyButton
  split <;> simp

end

/-! ## What the three branches leave -/

section
variable (f : FrameAccumulator) (code : UInt16) (value : Int32)

/-- The time is the only field that a stamp touches. -/
theorem stampFrame_frame (timestampNs : UInt64) :
    ∃ t, stampFrame f timestampNs = { f with timestampNs := t } := by
  unfold stampFrame
  split
  · exact ⟨_, rfl⟩
  · exact ⟨f.timestampNs, rfl⟩

theorem accumulateRel_dx : (accumulateRel f code value).dx =
    if code == REL_X then f.dx + value.toInt64 else f.dx := by
  unfold accumulateRel
  grind [REL_X]

theorem accumulateRel_dy : (accumulateRel f code value).dy =
    if code == REL_Y then f.dy + value.toInt64 else f.dy := by
  unfold accumulateRel
  grind [REL_X, REL_Y]

theorem accumulateRel_wheel : (accumulateRel f code value).wheel =
    if code == REL_WHEEL_HI_RES then
      (if f.wheelHiresSeen then f.wheel else 0) + value.toInt64
    else if code == REL_WHEEL && !f.wheelHiresSeen then f.wheel + value.toInt64
    else f.wheel := by
  unfold accumulateRel
  grind [REL_X, REL_Y, REL_WHEEL, REL_WHEEL_HI_RES]

theorem accumulateRel_hwheel : (accumulateRel f code value).hwheel =
    if code == REL_HWHEEL_HI_RES then
      (if f.hwheelHiresSeen then f.hwheel else 0) + value.toInt64
    else if code == REL_HWHEEL && !f.hwheelHiresSeen then f.hwheel + value.toInt64
    else f.hwheel := by
  unfold accumulateRel
  grind [REL_X, REL_Y, REL_WHEEL, REL_WHEEL_HI_RES, REL_HWHEEL, REL_HWHEEL_HI_RES]

theorem accumulateRel_hires :
    (accumulateRel f code value).wheelHiresSeen =
      (f.wheelHiresSeen || code == REL_WHEEL_HI_RES) ∧
    (accumulateRel f code value).hwheelHiresSeen =
      (f.hwheelHiresSeen || code == REL_HWHEEL_HI_RES) := by
  unfold accumulateRel
  grind [REL_X, REL_Y, REL_WHEEL, REL_WHEEL_HI_RES, REL_HWHEEL, REL_HWHEEL_HI_RES]

/-- A relative event touches neither the buttons nor the flags. -/
theorem accumulateRel_frame :
    (accumulateRel f code value).buttons = f.buttons ∧
    (accumulateRel f code value).flags = f.flags ∧
    (accumulateRel f code value).timestampNs = f.timestampNs := by
  unfold accumulateRel
  repeat' split
  all_goals exact ⟨rfl, rfl, rfl⟩

/-- A key event touches the buttons and the flags only. -/
theorem accumulateKey_eq : accumulateKey f code value = { f with
    buttons := applyButton f.buttons (buttonBitFromLinuxCode code) value
    flags := f.flags |||
      if applyButton f.buttons (buttonBitFromLinuxCode code) value != f.buttons then
        HFIOR_RECORD_BUTTON else 0 } := by
  unfold accumulateKey
  dsimp only
  split
  · rename_i hbit
    rw [beq_iff_eq] at hbit
    simp [hbit, applyButton_zero]
  · split <;> simp

end

/-! ## The accumulator behind a list of events -/

section
variable (buttons : UInt16) (timestampNs : UInt64) (es : List InputEvent)
  (e : InputEvent)

/-- The flags of one event more. -/
theorem eventFlags_snoc : eventFlags buttons (es ++ [e]) =
    eventFlags buttons es |||
      (if buttonStep (buttonsAfter buttons es) e != buttonsAfter buttons es then
        HFIOR_RECORD_BUTTON else 0) |||
      (if e.isDropped then HFIOR_RECORD_SYN_DROPPED else 0) := by
  rw [eventFlags, eventFlags, hasTransition_snoc, List.any_append, List.any_cons,
    List.any_nil, Bool.or_false]
  cases hasTransition buttons es <;> cases es.any (·.isDropped) <;>
    cases buttonStep (buttonsAfter buttons es) e != buttonsAfter buttons es <;>
    cases e.isDropped <;> decide

/-- An event that is not relative counts for no axis. -/
private theorem isRel_of_ne (h : e.type ≠ EV_REL) (code : UInt16) :
    e.isRel code = false := by
  simp [InputEvent.isRel, h]

/-- Only key events touch the buttons. -/
theorem buttonStep_of_ne (h : e.type ≠ EV_KEY) : buttonStep buttons e = buttons := by
  simp [buttonStep, h]

/-- The totals of one event more are those of the relative branch. -/
private theorem accumulateRel_frameAfter (h : e.type = EV_REL) :
    accumulateRel { frameAfter buttons timestampNs es with
        timestampNs := lastTimestamp timestampNs (es ++ [e]) } e.code e.value =
      frameAfter buttons timestampNs (es ++ [e]) := by
  have hisRel : ∀ code, e.isRel code = (e.code == code) := by
    intro code
    rw [InputEvent.isRel, h]
    rfl
  have hkey := buttonStep_of_ne (buttonsAfter buttons es) e (by rw [h]; decide)
  have hdropped : e.isDropped = false := by
    rw [InputEvent.isDropped, h]
    rfl
  obtain ⟨hwheel, hhwheel⟩ := accumulateRel_hires { frameAfter buttons timestampNs es
    with timestampNs := lastTimestamp timestampNs (es ++ [e]) } e.code e.value
  obtain ⟨hbuttons, hflags, htime⟩ := accumulateRel_frame { frameAfter buttons timestampNs es
    with timestampNs := lastTimestamp timestampNs (es ++ [e]) } e.code e.value
  apply FrameAccumulator.ext
  · rw [accumulateRel_dx]
    simp only [frameAfter, relTotal_snoc, hisRel]
    split <;> simp
  · rw [accumulateRel_dy]
    simp only [frameAfter, relTotal_snoc, hisRel]
    split <;> simp
  · rw [accumulateRel_wheel]
    simp only [frameAfter, wheelTotal_snoc, hisRel]
    repeat' split
    all_goals simp_all
  · rw [accumulateRel_hwheel]
    simp only [frameAfter, wheelTotal_snoc, hisRel]
    repeat' split
    all_goals simp_all
  · rw [hbuttons]
    simp only [frameAfter, buttonsAfter_snoc, hkey]
  · rw [hflags]
    simp [frameAfter, eventFlags_snoc, hkey, hdropped]
  · rw [hwheel]
    simp [frameAfter, List.any_append, hisRel]
  · rw [hhwheel]
    simp [frameAfter, List.any_append, hisRel]
  · rw [htime]
    rfl

/-- An event that is not relative touches the buttons and the flags only. -/
theorem frameAfter_snoc_of_ne (h : e.type ≠ EV_REL) :
    frameAfter buttons timestampNs (es ++ [e]) = { frameAfter buttons timestampNs es with
      buttons := buttonStep (buttonsAfter buttons es) e
      flags := eventFlags buttons (es ++ [e])
      timestampNs := lastTimestamp timestampNs (es ++ [e]) } := by
  have hisRel := isRel_of_ne e h
  simp [frameAfter, relTotal_snoc, wheelTotal_snoc, buttonsAfter_snoc, hisRel]

/-- One event more, in the source and in its meaning. -/
theorem accumulate_frameAfter :
    accumulate (frameAfter buttons timestampNs es) e =
      frameAfter buttons timestampNs (es ++ [e]) := by
  have hstamp : stampFrame (frameAfter buttons timestampNs es) (timevalToNs e.time) =
      { frameAfter buttons timestampNs es with
        timestampNs := lastTimestamp timestampNs (es ++ [e]) } := by
    rw [lastTimestamp_snoc, stampFrame]
    split <;> rfl
  unfold accumulate
  dsimp only
  rw [hstamp]
  by_cases hrel : e.type = EV_REL
  · rw [if_pos (by simpa using hrel)]
    exact accumulateRel_frameAfter buttons timestampNs es e hrel
  rw [if_neg (by simpa using hrel), frameAfter_snoc_of_ne _ _ _ _ hrel, eventFlags_snoc]
  by_cases hkey : e.type = EV_KEY
  · have hdropped : e.isDropped = false := by
      rw [InputEvent.isDropped, hkey]
      rfl
    rw [if_pos (by simpa using hkey), accumulateKey_eq]
    simp [frameAfter, buttonStep, hkey, hdropped]
  · rw [if_neg (by simpa using hkey), buttonStep_of_ne _ _ hkey]
    cases hdropped : e.isDropped <;> simp [frameAfter]

theorem frameAfter_nil : frameAfter buttons timestampNs [] =
    { cleanFrame buttons with timestampNs := timestampNs } := by
  simp [frameAfter, cleanFrame, relTotal, wheelTotal, buttonsAfter, eventFlags,
    hasTransition, lastTimestamp]

end

end Hfior
