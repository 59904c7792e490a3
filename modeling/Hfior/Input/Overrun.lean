import Hfior.Input.Buttons

/-!
# Buttons behind a kernel overrun

When its queue overruns, the kernel throws a block of events away and sends
`SYN_DROPPED` in its place.  `process_input_event` flags the frame, but it
does not read the key state again.  `buttons_recovered_iff` says what this
costs: the records behind a loss have the buttons of the device exactly if
no key is stranded, that is, if every key was last seen where it last went.
-/

namespace Hfior

/-! ## Streams with losses -/

/-- What the kernel hands over: an event, or `SYN_DROPPED` in place of the
events that are lost. -/
inductive KernelItem where
  | event (reading : Reading)
  | overrun (lost : List InputEvent) (time : Timeval)

def KernelItem.isOverrun : KernelItem → Bool
  | .event _ => false
  | .overrun _ _ => true

/-- What the bridge reads of an item. -/
def KernelItem.reading : KernelItem → Reading
  | .event reading => reading
  | .overrun _ time => quietReading ⟨time, EV_SYN, SYN_DROPPED, 0⟩

/-- What has happened on the device. -/
def KernelItem.happened : KernelItem → List InputEvent
  | .event reading => [reading.event]
  | .overrun lost _ => lost

/-- The readings of a stream. -/
def delivered (items : List KernelItem) : List Reading :=
  items.map KernelItem.reading

/-- All events of a stream, the lost ones included. -/
def happened (items : List KernelItem) : List InputEvent :=
  items.flatMap KernelItem.happened

/-- Where the last event of a key has left it. -/
def lastKeyValue (code : UInt16) (es : List InputEvent) : Option Bool :=
  es.reverse.findSome? fun e =>
    if e.type == EV_KEY && e.code == code then some (e.value != 0) else none

theorem lastKeyValue_snoc (code : UInt16) (es : List InputEvent) (e : InputEvent) :
    lastKeyValue code (es ++ [e]) =
      if e.type == EV_KEY && e.code == code then some (e.value != 0)
      else lastKeyValue code es := by
  rw [lastKeyValue, List.reverse_append, List.reverse_singleton, List.singleton_append,
    List.findSome?_cons]
  split <;> simp_all [lastKeyValue]

theorem keysAfter_snoc (keys : KeyState) (es : List InputEvent) (e : InputEvent) :
    keysAfter keys (es ++ [e]) = keyStep (keysAfter keys es) e := by
  simp [keysAfter]

/-- The key state is where the last events have left the keys. -/
theorem keysAfter_eq (keys : KeyState) (es : List InputEvent) (code : UInt16) :
    keysAfter keys es code = (lastKeyValue code es).getD (keys code) := by
  induction es using List.reverseRecOn with
  | nil => rfl
  | append_singleton es e ih =>
    rw [keysAfter_snoc, lastKeyValue_snoc]
    split
    · rename_i hkey
      rw [Bool.and_eq_true, beq_iff_eq, beq_iff_eq] at hkey
      obtain ⟨htype, rfl⟩ := hkey
      simp [keyStep, htype]
    · rename_i hkey
      rw [keyStep_of_notOfKey, ih]
      simpa [NotOfKey] using hkey

/-! ## Recovery -/

/-- Every record that is completed behind a loss has the buttons of the
device at its report. -/
def Recovers (b : InputBridge) (keys : KeyState) (items : List KernelItem) : Prop :=
  ∀ before report after p, items = before ++ .event report :: after →
    before.any (·.isOverrun) = true →
    (processInputEvent (processInput b (delivered before)).2 report).1 = some p →
    p.attempt.record.buttons = buttonMask (keysAfter keys (happened before))

/-- At every report behind a loss, the last event of every mapped key that
was delivered leaves the key where its last event has left it. -/
def NoStrandedKey (keys : KeyState) (items : List KernelItem) : Prop :=
  ∀ before report after, items = before ++ .event report :: after →
    before.any (·.isOverrun) = true → report.event.isReport = true →
    ∀ code ∈ mappedCodes,
      (lastKeyValue code (eventsOf (delivered before))).getD (keys code) =
        (lastKeyValue code (happened before)).getD (keys code)

/-- A report publishes the mask that it finds. -/
theorem processInputEvent_record_buttons {b : InputBridge} {reading : Reading}
    {p : Publication} (h : (processInputEvent b reading).1 = some p) :
    reading.event.isReport = true ∧ p.attempt.record.buttons = b.frame.buttons := by
  unfold processInputEvent at h
  dsimp only at h
  split at h
  · rename_i hreport
    refine ⟨hreport, ?_⟩
    obtain rfl := Option.some.inj h
    have hkey : reading.event.type ≠ EV_KEY := by
      rw [InputEvent.isReport, Bool.and_eq_true, beq_iff_eq, beq_iff_eq] at hreport
      rw [hreport.1]
      decide
    have hbuttons := accumulate_buttons b.frame reading.event
    rw [buttonStep_of_ne _ _ hkey] at hbuttons
    exact hbuttons
  · cases h

theorem processInputEvent_of_report (b : InputBridge) {reading : Reading}
    (h : reading.event.isReport = true) :
    ∃ p, (processInputEvent b reading).1 = some p := by
  unfold processInputEvent
  dsimp only
  rw [if_pos h]
  exact ⟨_, rfl⟩

/-- The records behind a loss have the buttons of the device exactly if no
mapped key is stranded. -/
theorem buttons_recovered_iff {b : InputBridge} {keys : KeyState}
    (hstart : b.frame.buttons = buttonMask keys) (items : List KernelItem) :
    Recovers b keys items ↔ NoStrandedKey keys items := by
  have hmask : ∀ before : List KernelItem,
      (processInput b (delivered before)).2.frame.buttons =
        buttonMask (keysAfter keys (eventsOf (delivered before))) := by
    intro before
    rw [processInput_buttons, hstart, buttonsAfter_buttonMask]
  constructor
  · intro h before report after hitems hloss hreport code hcode
    obtain ⟨p, hp⟩ := processInputEvent_of_report
      (processInput b (delivered before)).2 hreport
    have hrecord := h before report after p hitems hloss hp
    rw [(processInputEvent_record_buttons hp).2, hmask, buttonMask_inj] at hrecord
    rw [← keysAfter_eq, ← keysAfter_eq]
    exact hrecord code hcode
  · intro h before report after p hitems hloss hp
    obtain ⟨hreport, hbuttons⟩ := processInputEvent_record_buttons hp
    rw [hbuttons, hmask, buttonMask_inj]
    intro code hcode
    rw [keysAfter_eq, keysAfter_eq]
    exact h before report after hitems hloss hreport code hcode

/-- A stream in which the left button is pressed, and its release is lost. -/
def lostReleaseItems : List KernelItem :=
  [.event (quietReading (untimed EV_KEY BTN_LEFT 1)),
    .event (quietReading (untimed EV_SYN SYN_REPORT 0)),
    .overrun [untimed EV_KEY BTN_LEFT 0, untimed EV_SYN SYN_REPORT 0] ⟨0, 0⟩,
    .event (quietReading (untimed EV_SYN SYN_REPORT 0))]

/-- The last record of the stream still has the button that the device has
released. -/
theorem button_stuck_after_overrun :
    ¬ Recovers (freshInput 64) released lostReleaseItems ∧
      (recordsOf (processInput (freshInput 64) (delivered lostReleaseItems)).1).map
        (fun record => (record.buttons, record.has HFIOR_RECORD_SYN_DROPPED)) =
          [(HFIOR_BUTTON_LEFT, false), (HFIOR_BUTTON_LEFT, true)] ∧
      keysAfter released (happened lostReleaseItems) BTN_LEFT = false := by
  refine ⟨?_, by decide, by decide⟩
  intro h
  have hrecord := h (lostReleaseItems.take 3) (quietReading (untimed EV_SYN SYN_REPORT 0)) []
    _ rfl rfl rfl
  exact absurd hrecord (by decide)

/-- The release is lost, and the button is pressed again in front of the next
report. -/
def pressedAgainItems : List KernelItem :=
  lostReleaseItems.take 3 ++
    [.event (quietReading (untimed EV_KEY BTN_LEFT 1)),
      .event (quietReading (untimed EV_SYN SYN_REPORT 0))]

theorem noStrandedKey_pressedAgain : NoStrandedKey released pressedAgainItems := by
  intro before report after hitems hloss hreport
  have hbefore : before = pressedAgainItems.take before.length := by
    rw [hitems, List.take_left]
  have hget : pressedAgainItems[before.length]? = some (.event report) := by
    rw [hitems, List.getElem?_append_right (Nat.le_refl _), Nat.sub_self]
    rfl
  have hlt : before.length < 5 := (List.getElem?_eq_some_iff.1 hget).1
  rw [hbefore] at hloss ⊢
  generalize before.length = n at hloss hget hlt
  -- Only the last report is behind the loss.
  obtain rfl | rfl | rfl | rfl | rfl : n = 0 ∨ n = 1 ∨ n = 2 ∨ n = 3 ∨ n = 4 := by omega
  · cases hloss
  · cases hloss
  · cases hloss
  · obtain rfl := KernelItem.event.inj (Option.some.inj hget)
    cases hreport
  · have hkeys : mappedCodes.all (fun code =>
        (lastKeyValue code (eventsOf (delivered (pressedAgainItems.take 4)))).getD (released code) ==
          (lastKeyValue code (happened (pressedAgainItems.take 4))).getD (released code)) = true := by
      decide
    exact fun code hcode => beq_iff_eq.1 (List.all_eq_true.1 hkeys code hcode)

theorem buttons_recovered_after_lost_release :
    Recovers (freshInput 64) released pressedAgainItems :=
  (buttons_recovered_iff buttonMask_released.symm pressedAgainItems).2 noStrandedKey_pressedAgain

end Hfior
