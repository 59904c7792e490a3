import Hfior.Input.Stream
import Hfior.Library.BitMask

/-!
# The button mask and the key state

A key state says of every key code whether it is pressed.  `buttonMask` is
the mask of its mapped keys, and `buttonsAfter_buttonMask` says that the
events that change the key state keep the mask up to date.

`refresh_button_state` reads the key state from the device, with a table of
its own that lacks two keys.  `buttons_agree_iff` says when the two ways
agree.
-/

namespace Hfior

open BitMask

/-! ## Key states -/

/-- Which key codes are pressed. -/
abbrev KeyState := UInt16 → Bool

/-- No key is pressed. -/
def released : KeyState := fun _ => false

/-- What an event does to the keys of the device. -/
def keyStep (keys : KeyState) (e : InputEvent) : KeyState :=
  if e.type == EV_KEY then Function.update keys e.code (e.value != 0) else keys

/-- The keys after some events. -/
def keysAfter (keys : KeyState) (es : List InputEvent) : KeyState :=
  es.foldl keyStep keys

/-- The keys that have a bit. -/
def mappedCodes : List UInt16 := buttonTable.map Prod.fst

/-- The mask of the mapped keys that are pressed. -/
def buttonMask (keys : KeyState) : UInt16 :=
  maskOf buttonBitFromLinuxCode mappedCodes keys

theorem disjoint_mappedCodes : Disjoint buttonBitFromLinuxCode mappedCodes where
  ne_zero := by
    have h : mappedCodes.all (buttonBitFromLinuxCode · != 0) = true := by decide
    simpa using h
  disjoint := by decide

/-- A key that is not mapped has no bit. -/
theorem buttonBit_of_not_mapped {code : UInt16} (h : code ∉ mappedCodes) :
    buttonBitFromLinuxCode code = 0 := by
  have hnone : buttonTable.lookup code = none := by
    rw [List.lookup_eq_none_iff]
    intro p hp
    rw [bne_iff_ne]
    rintro rfl
    exact h (List.mem_map_of_mem hp)
  rw [buttonBitFromLinuxCode, hnone]
  rfl

section
variable (keys : KeyState) (es : List InputEvent) (e : InputEvent)

/-- An event does to the mask what it does to the keys. -/
theorem buttonStep_buttonMask :
    buttonStep (buttonMask keys) e = buttonMask (keyStep keys e) := by
  unfold buttonStep keyStep
  split
  · by_cases hmapped : e.code ∈ mappedCodes
    · unfold applyButton buttonMask
      cases hvalue : e.value != 0 with
      | true => exact maskOf_or disjoint_mappedCodes hmapped
      | false => exact maskOf_and_not disjoint_mappedCodes hmapped
    · rw [buttonBit_of_not_mapped hmapped, applyButton_zero]
      exact (maskOf_update_of_notMem hmapped _).symm
  · rfl

/-- So the mask of the events is the mask of the keys. -/
theorem buttonsAfter_buttonMask :
    buttonsAfter (buttonMask keys) es = buttonMask (keysAfter keys es) := by
  induction es generalizing keys with
  | nil => rfl
  | cons e es ih =>
    rw [buttonsAfter, List.foldl_cons, buttonStep_buttonMask]
    exact ih (keyStep keys e)

theorem buttonMask_released : buttonMask released = 0 := by decide

/-- A pressed mapped key is in the mask. -/
theorem buttonMask_test {code : UInt16} (h : code ∈ mappedCodes) :
    (buttonMask keys &&& buttonBitFromLinuxCode code != 0) = keys code :=
  test_maskOf disjoint_mappedCodes h

theorem buttonMask_inj {keys' : KeyState} :
    buttonMask keys = buttonMask keys' ↔ ∀ code ∈ mappedCodes, keys code = keys' code :=
  maskOf_inj disjoint_mappedCodes

end

/-! ## The accumulator and the mask -/

section
variable (f : FrameAccumulator) (e : InputEvent)

/-- Any accumulator: an event does to its mask what it does to a mask. -/
theorem accumulate_buttons : (accumulate f e).buttons = buttonStep f.buttons e := by
  obtain ⟨t, hstamp⟩ := stampFrame_frame f (timevalToNs e.time)
  unfold accumulate
  rw [hstamp]
  dsimp only
  by_cases hrel : e.type = EV_REL
  · rw [if_pos (by simpa using hrel), (accumulateRel_frame _ _ _).1, buttonStep_of_ne]
    rw [hrel]
    decide
  rw [if_neg (by simpa using hrel)]
  by_cases hkey : e.type = EV_KEY
  · have hkey' : (e.type == EV_KEY) = true := by simpa using hkey
    rw [if_pos hkey', accumulateKey_eq, buttonStep, if_pos hkey']
  · rw [if_neg (by simpa using hkey), buttonStep_of_ne _ _ hkey]
    split <;> rfl

/-- A mask that changes is flagged. -/
theorem accumulate_transition (h : buttonStep f.buttons e ≠ f.buttons) :
    (accumulate f e).flags &&& HFIOR_RECORD_BUTTON ≠ 0 := by
  obtain ⟨t, hstamp⟩ := stampFrame_frame f (timevalToNs e.time)
  have hkey : e.type = EV_KEY := by
    by_contra hne
    exact h (buttonStep_of_ne _ _ hne)
  have hchange : (applyButton f.buttons (buttonBitFromLinuxCode e.code) e.value !=
      f.buttons) = true := by
    simpa [buttonStep, hkey] using h
  have hrel : ¬ (e.type == EV_REL) = true := by
    rw [hkey]
    decide
  unfold accumulate
  rw [hstamp]
  dsimp only
  rw [if_neg hrel, if_pos (by simpa using hkey), accumulateKey_eq]
  dsimp only
  rw [if_pos hchange, or_and_self]
  decide

end

section
variable (b : InputBridge)

theorem processInputEvent_buttons (reading : Reading) :
    (processInputEvent b reading).2.frame.buttons =
      buttonStep b.frame.buttons reading.event := by
  rw [← accumulate_buttons]
  unfold processInputEvent
  dsimp only
  split <;> rfl

/-- Reports or not, the mask follows the key events. -/
theorem processInput_buttons (readings : List Reading) :
    (processInput b readings).2.frame.buttons =
      buttonsAfter b.frame.buttons (eventsOf readings) := by
  induction readings generalizing b with
  | nil => rfl
  | cons reading readings ih =>
    rw [processInput]
    dsimp only
    rw [ih, processInputEvent_buttons]
    rfl

end

/-! ## The key state that the device reports -/

section
variable (keys : KeyBitmap)

theorem refreshedButtons_eq : refreshedButtons keys =
    maskOf buttonBitFromLinuxCode refreshCodes (keyBitIsSet keys) := by
  rw [refreshedButtons, foldl_eq_maskOf, UInt16.zero_or]

/-- The table of `refresh_button_state` has all mapped keys but two. -/
theorem mappedCodes_eq : mappedCodes = refreshCodes ++ [BTN_8, BTN_9] := rfl

/-- The refreshed mask is the mask of the key state if the two missing keys
are released. -/
theorem refreshedButtons_of_clear (h8 : keyBitIsSet keys BTN_8 = false)
    (h9 : keyBitIsSet keys BTN_9 = false) :
    refreshedButtons keys = buttonMask (keyBitIsSet keys) := by
  rw [buttonMask, mappedCodes_eq, maskOf_append, refreshedButtons_eq]
  simp [h8, h9]

/-- The refreshed mask never has the bits of the two missing keys. -/
theorem refreshedButtons_and_missing {code : UInt16} (h : code ∈ [BTN_8, BTN_9]) :
    refreshedButtons keys &&& buttonBitFromLinuxCode code = 0 := by
  have hall : ([BTN_8, BTN_9].all fun x => refreshCodes.all fun y =>
      buttonBitFromLinuxCode y &&& buttonBitFromLinuxCode x == 0) = true := by decide
  have hmissing : ∀ y ∈ refreshCodes,
      buttonBitFromLinuxCode y &&& buttonBitFromLinuxCode code = 0 := by
    simpa using List.all_eq_true.1 hall code h
  rw [refreshedButtons_eq]
  exact maskOf_and_eq_zero hmissing

end

/-! ## Snapshot and increments -/

/-- A press of exactly the keys that the bitmap has. -/
structure PressesOf (keys : KeyBitmap) (es : List InputEvent) : Prop where
  press : ∀ e ∈ es, e.type = EV_KEY ∧ e.value ≠ 0
  codes : ∀ code, keyBitIsSet keys code = true ↔ ∃ e ∈ es, e.code = code

/-- The events lead from a released keyboard to the key state of the
bitmap. -/
def LeadsTo (keys : KeyBitmap) (es : List InputEvent) : Prop :=
  ∀ code : UInt16, code.toNat ≤ keyMax →
    keyBitIsSet keys code = keysAfter released es code

/-- The event says nothing about the key. -/
def NotOfKey (code : UInt16) (e : InputEvent) : Prop :=
  ¬ (e.type = EV_KEY ∧ e.code = code)

/-- A release of the key. -/
def IsRelease (code : UInt16) (e : InputEvent) : Prop :=
  e.type = EV_KEY ∧ e.code = code ∧ e.value = 0

/-- The mask of `refresh_button_state` and the incremental one agree on this
key state, and a key that is held when `discard_pending_input` runs is in the
frame and its release is a transition. -/
structure ButtonsAgree (keys : KeyBitmap) : Prop where
  presses : ∀ (b : InputBridge) (readings : List Reading), b.frame.buttons = 0 →
    PressesOf keys (eventsOf readings) →
    (processInput b readings).2.frame.buttons = refreshedButtons keys
  history : ∀ (b : InputBridge) (readings : List Reading), b.frame.buttons = 0 →
    LeadsTo keys (eventsOf readings) →
    (processInput b readings).2.frame.buttons = refreshedButtons keys
  held : ∀ (b b' : InputBridge) (reads : List DeviceRead) (code : UInt16),
    0 ≤ b.inputFd → discardPendingInput b reads (some keys) = (0, b') →
    code ∈ mappedCodes → keyBitIsSet keys code = true →
    b'.frame.buttons &&& buttonBitFromLinuxCode code ≠ 0 ∧
    ∀ readings release, (∀ r ∈ readings, NotOfKey code r.event) →
      IsRelease code release →
      (takeEvent (processInput b' readings).2 release).frame.flags &&&
        HFIOR_RECORD_BUTTON ≠ 0

section
variable {keys : KeyBitmap} {state : KeyState} {es : List InputEvent} {code : UInt16}

/-- A key is where its last event has left it. -/
theorem keyStep_of_notOfKey {e : InputEvent} (h : NotOfKey code e) :
    keyStep state e code = state code := by
  unfold keyStep
  split
  · rename_i htype
    have hne : code ≠ e.code := by
      rintro rfl
      exact h ⟨beq_iff_eq.1 htype, rfl⟩
    exact Function.update_of_ne hne _ _
  · rfl

theorem keysAfter_of_notOfKey (h : ∀ e ∈ es, NotOfKey code e) :
    keysAfter state es code = state code := by
  induction es generalizing state with
  | nil => rfl
  | cons e es ih =>
    rw [keysAfter, List.foldl_cons, ← keysAfter, ih fun x hx => h x (by simp [hx])]
    exact keyStep_of_notOfKey (h e (by simp))

/-- Presses only turn their keys on. -/
theorem keysAfter_of_presses (h : ∀ e ∈ es, e.type = EV_KEY ∧ e.value ≠ 0) :
    keysAfter state es code = true ↔ state code = true ∨ ∃ e ∈ es, e.code = code := by
  induction es generalizing state with
  | nil => simp [keysAfter]
  | cons e es ih =>
    obtain ⟨htype, hvalue⟩ := h e (by simp)
    rw [keysAfter, List.foldl_cons, ← keysAfter, ih fun x hx => h x (by simp [hx])]
    have hon : (e.value != 0) = true := by simpa using hvalue
    have hstep : keyStep state e = Function.update state e.code true := by
      rw [keyStep, htype, hon]
      rfl
    rw [hstep, List.exists_mem_cons_iff]
    by_cases hcode : e.code = code
    · simp [hcode]
    · rw [Function.update_of_ne (Ne.symm hcode)]
      simp [hcode]

theorem PressesOf.leadsTo (h : PressesOf keys es) : LeadsTo keys es := by
  intro code _
  rw [Bool.eq_iff_iff, h.codes code, keysAfter_of_presses h.press]
  simp [released]

/-- All mapped keys are in the bitmap. -/
theorem mappedCodes_le : ∀ code ∈ mappedCodes, code.toNat ≤ keyMax := by
  have h : (mappedCodes.all fun code => code.toNat ≤ keyMax) = true := by decide
  simpa using h

/-- The mask of a history is the mask of the key state that it leads to. -/
theorem buttons_of_leadsTo {b : InputBridge} {readings : List Reading}
    (hbuttons : b.frame.buttons = 0) (h : LeadsTo keys (eventsOf readings)) :
    (processInput b readings).2.frame.buttons = buttonMask (keyBitIsSet keys) := by
  rw [processInput_buttons, hbuttons, ← buttonMask_released, buttonsAfter_buttonMask,
    buttonMask_inj]
  intro code hcode
  exact (h code (mappedCodes_le code hcode)).symm

/-- The start barrier leaves the refreshed mask. -/
theorem discardPendingInput_buttons {b b' : InputBridge} {reads : List DeviceRead}
    (hopen : 0 ≤ b.inputFd)
    (h : discardPendingInput b reads (some keys) = (0, b')) :
    b'.frame.buttons = refreshedButtons keys := by
  have hnot : ¬ b.inputFd < 0 := by simpa using hopen
  rw [discardPendingInput, if_neg hnot] at h
  split at h
  · cases h
  · cases h
    rw [refreshButtonState, if_neg hnot]

/-- The release of a key that the mask has is a transition. -/
theorem release_flagged {b : InputBridge} {release : InputEvent}
    (hcode : code ∈ mappedCodes) (hbuttons : b.frame.buttons = buttonMask state)
    (hpressed : state code = true) (h : IsRelease code release) :
    (takeEvent b release).frame.flags &&& HFIOR_RECORD_BUTTON ≠ 0 := by
  apply accumulate_transition
  obtain ⟨htype, rfl, hvalue⟩ := h
  rw [hbuttons, buttonStep_buttonMask]
  intro heq
  have hsame := (buttonMask_inj _).1 heq release.code hcode
  simp [keyStep, htype, hvalue, hpressed] at hsame

end

/-- The two ways agree on a key state exactly if the two keys that the table
of `refresh_button_state` lacks are released. -/
theorem buttons_agree_iff (keys : KeyBitmap) :
    ButtonsAgree keys ↔
      keyBitIsSet keys BTN_8 = false ∧ keyBitIsSet keys BTN_9 = false := by
  constructor
  · intro h
    have hclear : ∀ code ∈ [BTN_8, BTN_9], keyBitIsSet keys code = false := by
      intro code hmissing
      by_contra hset
      have hmapped : code ∈ mappedCodes := by
        rw [mappedCodes_eq]
        exact List.mem_append_right _ hmissing
      have hheld := h.held (freshInput 64) _ [] code (by decide) rfl hmapped (by simpa using hset)
      exact hheld.1 (refreshedButtons_and_missing keys hmissing)
    exact ⟨hclear BTN_8 (by decide), hclear BTN_9 (by decide)⟩
  · rintro ⟨h8, h9⟩
    have hmask := refreshedButtons_of_clear keys h8 h9
    refine ⟨?_, ?_, ?_⟩
    · intro b readings hbuttons hpresses
      rw [hmask, buttons_of_leadsTo hbuttons hpresses.leadsTo]
    · intro b readings hbuttons hleads
      rw [hmask, buttons_of_leadsTo hbuttons hleads]
    · intro b b' reads code hopen hdiscard hcode hset
      have hbuttons := discardPendingInput_buttons hopen hdiscard
      rw [hmask] at hbuttons
      refine ⟨?_, ?_⟩
      · have htest := buttonMask_test (keyBitIsSet keys) hcode
        rw [hset] at htest
        rw [hbuttons]
        simpa using htest
      · intro readings release huntouched hrelease
        have hevents : ∀ e ∈ eventsOf readings, NotOfKey code e := by
          intro e he
          obtain ⟨r, hr, rfl⟩ := List.mem_map.1 he
          exact huntouched r hr
        refine release_flagged hcode ?_ ((keysAfter_of_notOfKey hevents).trans hset) hrelease
        rw [processInput_buttons, hbuttons, buttonsAfter_buttonMask]

/-- A key state in which only `BTN_8` is pressed. -/
def onlyBtn8 : KeyBitmap := (Vector.replicate _ 0).set 4 0x100

/-- A device on which `BTN_8` is held: its press sets a bit, and the refreshed
mask has no bit at all. -/
theorem buttons_disagree_on_btn8 :
    ¬ ButtonsAgree onlyBtn8 ∧ keyBitIsSet onlyBtn8 BTN_8 = true ∧
      refreshedButtons onlyBtn8 = 0 ∧
      (processInput (freshInput 64)
        [quietReading (untimed EV_KEY BTN_8 1)]).2.frame.buttons = HFIOR_BUTTON_8 := by
  refine ⟨?_, by decide, by decide, by decide⟩
  intro h
  have hheld := h.held (freshInput 64) _ [] BTN_8 (by decide) rfl (by decide) (by decide)
  exact hheld.1 (by decide)

end Hfior
