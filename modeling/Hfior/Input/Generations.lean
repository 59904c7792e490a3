import Hfior.Input.MainLoop
import Hfior.Input.Stream

/-!
# The frames of a generation

A device may be lost in the middle of a frame, and the bridge opens it again
in the next generation.  `deviceMachine` runs the main loop on a device
and keeps, in ghost fields, what the present generation has read and
published, and the mask that `discard_pending_input` would have established
when its device was opened.

`OwnEvents` says that every record of the present generation is the record
of a frame of its own events.  `OwnEvents.reconnect_iff` says when a reconnect
begins with the clean frame, and `generations_clean` is the run.
-/

namespace Hfior

/-! ## What a call reads -/

/-- The accumulator that holds exactly the frame. -/
def Frame.accumulated (frame : Frame) : FrameAccumulator :=
  frameAfter frame.buttons 0 frame.events

@[simp] theorem accumulated_nil (buttons : UInt16) :
    Frame.accumulated ⟨buttons, []⟩ = cleanFrame buttons :=
  frameAfter_nil buttons 0

/-- The events that some reads return before one of them fails. -/
def readingsRead : List DeviceRead → List Reading
  | [] => []
  | .events readings :: rest => readings ++ readingsRead rest
  | .failed .EINTR :: rest => readingsRead rest
  | _ :: _ => []

/-- `drain_input_device` processes what it reads. -/
theorem drainInputDevice_eq (b : InputBridge) (reads : List DeviceRead) :
    (drainInputDevice b reads).2 = processInput b (readingsRead reads) := by
  induction reads generalizing b with
  | nil => rfl
  | cons read reads ih =>
    cases read with
    | events readings =>
      rw [readingsRead, processInput_append, drainInputDevice]
      simp only [ih]
    | torn => rfl
    | eof => rfl
    | failed errno =>
      cases errno with
      | EINTR => exact ih b
      | _ => rfl

/-- The accumulator holds exactly the frame that is not complete. -/
theorem processInput_accumulated {b : InputBridge} {frame : Frame}
    (h : b.frame = frame.accumulated) (readings : List Reading) :
    (processInput b readings).2.frame =
      (splitFrames frame (eventsOf readings)).2.accumulated := by
  induction readings generalizing b frame with
  | nil => exact h
  | cons reading readings ih =>
    have haccumulate : accumulate b.frame reading.event =
        (frame.add reading.event).accumulated := by
      rw [h]
      exact accumulate_frameAfter _ _ _ _
    rw [eventsOf, List.map_cons, ← eventsOf, splitFrames, processInput]
    cases hreport : reading.event.isReport with
    | true =>
      simp only [if_true]
      apply ih
      have hbuttons : (accumulate b.frame reading.event).buttons =
          buttonsAfter frame.buttons frame.events := by
        rw [haccumulate, Frame.accumulated, Frame.add, frameAfter_report _ _ hreport]
        rfl
      simp only [processInputEvent, hreport, if_true, Frame.next, accumulated_nil]
      exact congrArg cleanFrame hbuttons
    | false =>
      simp only [Bool.false_eq_true, if_false]
      apply ih
      simp only [processInputEvent, hreport]
      exact haccumulate

/-- A stream that goes on goes on with its last frame. -/
theorem splitFrames_append (frame : Frame) (es es' : List InputEvent) :
    splitFrames frame (es ++ es') =
      ((splitFrames frame es).1 ++ (splitFrames (splitFrames frame es).2 es').1,
        (splitFrames (splitFrames frame es).2 es').2) := by
  induction es generalizing frame with
  | nil => rfl
  | cons e es ih =>
    rw [List.cons_append, splitFrames, splitFrames, ih, ih]
    split <;> rfl

/-! ## The machine -/

/-- What the present generation has read and published. -/
structure Generation where
  /-- The generation of the bridge when the device was opened. -/
  number : UInt64
  /-- The mask of the keys that were held when the device was opened. -/
  buttons : UInt16
  read : List InputEvent
  records : List Record
  /-- The terminal record, behind the main loop. -/
  terminal : Option Record

/-- The mask that `discard_pending_input` establishes, where `keys` is what
`EVIOCGKEY` returns on the device, unless it fails. -/
def openMask (keys : Option KeyBitmap) : UInt16 :=
  (keys.map refreshedButtons).getD 0

/-- A generation that has read nothing. -/
def Generation.opened (number : UInt64) (keys : Option KeyBitmap) : Generation :=
  ⟨number, openMask keys, [], [], none⟩

/-- A call of the main loop on a device.  `keys` is what `EVIOCGKEY` would
return on the device that is opened. -/
inductive DeviceCall where
  | poll (reads : Option (List DeviceRead)) (hangup : Bool)
      (gone hungUp : DeviceStateEnv)
  | control (received : Except Errno (List UInt8)) (nowNs : UInt64) (urgent : IoResult)
  | reconnect (fd : Int32) (env : DeviceStateEnv) (keys : Option KeyBitmap)
  | terminal (nowNs : UInt64) (env : PublishEnv) (urgent : IoResult)

def DeviceCall.main : DeviceCall → MainCall
  | .poll reads hangup gone hungUp => .device reads hangup gone hungUp
  | .control received nowNs urgent => .control received nowNs urgent
  | .reconnect fd env _ => .reconnect fd env
  | .terminal nowNs env urgent => .terminal nowNs env urgent

/-- Behind the terminal record only control messages are read. -/
def DeviceCall.allowed (current : Generation) : DeviceCall → Bool
  | .control _ _ _ => true
  | _ => current.terminal.isNone

/-- What a call adds to the generation, where `records` are those that it
published.  A device that is opened begins the next one. -/
def Generation.after (current : Generation) (records : List Record) :
    DeviceCall → Generation
  | .poll reads _ _ _ => { current with
      read := current.read ++ eventsOf (readingsRead (reads.getD []))
      records := current.records ++ records }
  | .control _ _ _ => current
  | .reconnect fd _ keys =>
    if fd < 0 then current else .opened (current.number + 1) keys
  | .terminal _ _ _ => { current with terminal := records.head? }

/-- The bridge, and its present generation. -/
structure Replugged where
  bridge : InputBridge
  current : Generation

/-- The main loop on a device. -/
def deviceMachine : Machine Replugged DeviceCall where
  step s call :=
    if s.bridge.ready call.main && call.allowed s.current then some
      { bridge := (s.bridge.call call.main).2
        current := s.current.after (recordsOf (s.bridge.call call.main).1) call }
    else none

/-- The bridge behind the start barrier. -/
def Replugged.start (b : InputBridge) (keys : Option KeyBitmap) : Replugged :=
  ⟨b, .opened b.generation keys⟩

/-! ## The records of a generation -/

/-- The frame that the generation has begun and not completed. -/
def Generation.pending (g : Generation) : Frame :=
  (splitFrames ⟨g.buttons, []⟩ g.read).2

/-- The terminal record behind this frame: it has no displacement, and the
mask behind the events. -/
def IsTerminalOf (frame : Frame) (record : Record) : Prop :=
  ∃ nowNs sequence, record = ⟨sequence, nowNs, 0, 0, 0, 0,
    buttonsAfter frame.buttons frame.events, HFIOR_RECORD_TERMINATE⟩

/-- The records of the present generation, and the accumulator, come from
its own events and from the keys of its own device. -/
structure OwnEvents (s : Replugged) : Prop where
  number : s.bridge.generation = s.current.number
  frame : s.bridge.frame = s.current.pending.accumulated
  /-- Before the first event the frame is clean. -/
  clean : s.current.read = [] → s.bridge.frame = cleanFrame s.current.buttons
  records : List.Forall₂ IsRecordOf
    (splitFrames ⟨s.current.buttons, []⟩ s.current.read).1 s.current.records
  terminal : ∀ record ∈ s.current.terminal, IsTerminalOf s.current.pending record

/-- The frame leaves nothing to a device that has this mask: no
displacement, no hi-res wheel, no flag, no time, and the same buttons. -/
def LeavesNothing (frame : Frame) (buttons : UInt16) : Prop :=
  relTotal REL_X frame.events = 0 ∧ relTotal REL_Y frame.events = 0 ∧
  relTotal REL_WHEEL frame.events = 0 ∧ relTotal REL_HWHEEL frame.events = 0 ∧
  (∀ e ∈ frame.events, e.isRel REL_WHEEL_HI_RES = false ∧
    e.isRel REL_HWHEEL_HI_RES = false ∧ e.isDropped = false ∧
    timevalToNs e.time = 0) ∧
  hasTransition frame.buttons frame.events = false ∧ frame.buttons = buttons

instance (frame : Frame) (buttons : UInt16) : Decidable (LeavesNothing frame buttons) :=
  show Decidable (_ ∧ _) from inferInstance

/-- The condition on a reconnect that opens a device. -/
def CleanReconnect (s : Replugged) : DeviceCall → Prop
  | .reconnect fd _ keys => fd < 0 ∨ LeavesNothing s.current.pending (openMask keys)
  | _ => True

instance (s : Replugged) : (call : DeviceCall) → Decidable (CleanReconnect s call)
  | .reconnect _ _ _ => show Decidable (_ ∨ _) from inferInstance
  | .poll _ _ _ _ | .control _ _ _ | .terminal _ _ _ => isTrue trivial

/-! ## When a frame leaves nothing -/

/-- No time of an event has been noted. -/
theorem lastTimestamp_eq_zero (es : List InputEvent) :
    lastTimestamp 0 es = 0 ↔ ∀ e ∈ es, timevalToNs e.time = 0 := by
  induction es using List.reverseRecOn with
  | nil => simp [lastTimestamp]
  | append_singleton es e ih =>
    rw [lastTimestamp_snoc]
    by_cases hzero : timevalToNs e.time = 0
    · simp [hzero, ih, or_imp, forall_and]
    · simp [hzero, or_imp, forall_and]

/-- Without a transition the mask stays. -/
theorem buttonsAfter_of_no_transition {buttons : UInt16} {es : List InputEvent}
    (h : hasTransition buttons es = false) : buttonsAfter buttons es = buttons := by
  induction es with
  | nil => rfl
  | cons e es ih =>
    rw [hasTransition, Bool.or_eq_false_iff, bne_eq_false_iff_eq] at h
    obtain ⟨hstep, hrest⟩ := h
    rw [hstep] at hrest
    rw [buttonsAfter, List.foldl_cons, hstep]
    exact ih hrest

/-- The flags are zero when no event sets one. -/
theorem eventFlags_eq_zero (buttons : UInt16) (es : List InputEvent) :
    eventFlags buttons es = 0 ↔
      hasTransition buttons es = false ∧ ∀ e ∈ es, e.isDropped = false := by
  have hany : (es.any (·.isDropped) = false) ↔ ∀ e ∈ es, e.isDropped = false := by
    simp [List.any_eq_false]
  rw [← hany, eventFlags]
  cases hasTransition buttons es <;> cases es.any (·.isDropped) <;> decide

/-- Such a frame is accumulated as the clean frame of the device. -/
theorem LeavesNothing.accumulated {frame : Frame} {buttons : UInt16}
    (h : LeavesNothing frame buttons) : frame.accumulated = cleanFrame buttons := by
  obtain ⟨hx, hy, hwheel, hhwheel, hevents, htransition, rfl⟩ := h
  have hhires : frame.events.any (·.isRel REL_WHEEL_HI_RES) = false := by
    simpa [List.any_eq_false] using fun e he => (hevents e he).1
  have hhhires : frame.events.any (·.isRel REL_HWHEEL_HI_RES) = false := by
    simpa [List.any_eq_false] using fun e he => (hevents e he).2.1
  have hflags : eventFlags frame.buttons frame.events = 0 :=
    (eventFlags_eq_zero _ _).2 ⟨htransition, fun e he => (hevents e he).2.2.1⟩
  have htime : lastTimestamp 0 frame.events = 0 :=
    (lastTimestamp_eq_zero _).2 fun e he => (hevents e he).2.2.2
  simp [Frame.accumulated, frameAfter, cleanFrame, wheelTotal, hx, hy, hwheel, hhwheel,
    hhires, hhhires, hflags, htime, buttonsAfter_of_no_transition htransition]

/-- A total that is stored as zero is zero, unless the frame is very long. -/
private theorem relTotal_eq_zero {code : UInt16} {es : List InputEvent}
    (hlt : es.length < 2 ^ 31) (h : Int64.ofInt (relTotal code es) = 0) :
    relTotal code es = 0 := by
  rw [← toInt_ofInt_of_bounds hlt (relTotal_bounds code es), h]
  rfl

/-- No other frame does, unless it is very long. -/
theorem leavesNothing_iff {frame : Frame} {buttons : UInt16}
    (hlt : frame.events.length < 2 ^ 31) :
    frame.accumulated = cleanFrame buttons ↔ LeavesNothing frame buttons := by
  refine ⟨?_, LeavesNothing.accumulated⟩
  intro h
  simp only [Frame.accumulated, frameAfter, cleanFrame, FrameAccumulator.mk.injEq] at h
  obtain ⟨hx, hy, hwheel, hhwheel, hbuttons, hflags, hhires, hhhires, htime⟩ := h
  obtain ⟨htransition, hdropped⟩ := (eventFlags_eq_zero _ _).1 hflags
  rw [wheelTotal, hhires] at hwheel
  rw [wheelTotal, hhhires] at hhwheel
  rw [List.any_eq_false] at hhires hhhires
  refine ⟨relTotal_eq_zero hlt hx, relTotal_eq_zero hlt hy, relTotal_eq_zero hlt hwheel,
    relTotal_eq_zero hlt hhwheel, ?_, htransition, ?_⟩
  · intro e he
    exact ⟨by simpa using hhires e he, by simpa using hhhires e he, hdropped e he,
      (lastTimestamp_eq_zero _).1 htime e he⟩
  · rw [← hbuttons, buttonsAfter_of_no_transition htransition]

/-! ## What the calls keep -/

section
variable (b : InputBridge)

/-- No event changes the generation. -/
theorem processInput_generation (readings : List Reading) :
    (processInput b readings).2.generation = b.generation := by
  induction readings generalizing b with
  | nil => rfl
  | cons reading readings ih =>
    rw [processInput]
    dsimp only
    rw [ih]
    rcases processInputEvent_cases b reading with ⟨-, hsame⟩ | ⟨env, record, -, hnext⟩
    · rw [hsame]
    · rw [hnext, publishRecord_generation]

theorem markGone_generation (env : DeviceStateEnv) :
    (b.markGone env).generation = b.generation :=
  (quiet_markDeviceGone b.toBridge env.send env.urgent).generation

theorem hangupDevice_frame (env : DeviceStateEnv) :
    (hangupDevice b env).frame = b.frame ∧
      (hangupDevice b env).generation = b.generation := by
  unfold hangupDevice
  split
  · exact ⟨rfl, markGone_generation b env⟩
  · exact ⟨rfl, rfl⟩

/-- A poll of the device processes what it reads, and a lost device keeps the
accumulator. -/
theorem call_poll (reads : Option (List DeviceRead)) (hangup : Bool)
    (gone hungUp : DeviceStateEnv) :
    let processed := processInput b (readingsRead (reads.getD []))
    let called := b.call (.device reads hangup gone hungUp)
    called.1 = processed.1 ∧ called.2.frame = processed.2.frame ∧
      called.2.generation = b.generation := by
  have hserved : ∀ reads,
      (serveDevice b reads gone).1 = (processInput b (readingsRead reads)).1 ∧
      (serveDevice b reads gone).2.frame = (processInput b (readingsRead reads)).2.frame ∧
      (serveDevice b reads gone).2.generation = b.generation := by
    intro reads
    rw [← processInput_generation b (readingsRead reads), ← drainInputDevice_eq]
    unfold serveDevice
    dsimp only
    split
    · exact ⟨rfl, rfl, markGone_generation _ gone⟩
    · exact ⟨rfl, rfl, rfl⟩
  intro processed called
  cases reads with
  | none =>
    cases hangup with
    | false => exact ⟨rfl, rfl, rfl⟩
    | true => exact ⟨rfl, hangupDevice_frame b hungUp⟩
  | some reads =>
    obtain ⟨hpublications, hframe, hgeneration⟩ := hserved reads
    cases hangup with
    | false => exact ⟨hpublications, hframe, hgeneration⟩
    | true =>
      obtain ⟨hkept, hsame⟩ := hangupDevice_frame (serveDevice b reads gone).2 hungUp
      exact ⟨hpublications, hkept.trans hframe, hsame.trans hgeneration⟩

/-- No datagram changes the generation. -/
theorem handleControlMessage_generation (b : Bridge) (nowNs : UInt64) (urgent : IoResult)
    (received : Except Errno (List UInt8)) :
    (handleControlMessage b received nowNs urgent).bridge.generation = b.generation := by
  rcases handleControlMessage_cases b nowNs urgent received with
    ⟨datagram, -, -, hbridge⟩ | ⟨datagram, -, -, hbridge⟩ | hquiet
  · rw [hbridge]
    rfl
  · rw [hbridge, handleSetMode]
    split <;> rfl
  · exact hquiet.generation

/-- A reconnect that opens a device begins the next generation. -/
theorem reconnect_generation (fd : Int32) (env : DeviceStateEnv)
    (hdevice : b.config.devicePath = true) :
    (b.reconnect fd env).generation =
      if fd < 0 then b.generation else b.generation + 1 := by
  have hnot : ¬ (!b.config.devicePath) = true := by simp [hdevice]
  rw [InputBridge.reconnect, tryReconnectDevice, if_neg hnot, openInputDevice, if_neg hnot]
  by_cases hfd : fd < 0
  · rw [if_pos hfd, if_pos hfd]
    rfl
  · rw [if_neg hfd, if_neg hfd]
    exact (quiet_sendDeviceState _ env.send env.urgent _).generation

/-- The terminal record is one of the frame that is pending. -/
theorem publishTerminal_record (nowNs : UInt64) (env : PublishEnv) (urgent : IoResult)
    {frame : Frame} (h : b.frame = frame.accumulated) :
    IsTerminalOf frame (publishTerminal b nowNs env urgent).1.attempt.record ∧
      (publishTerminal b nowNs env urgent).2.frame = b.frame ∧
      (publishTerminal b nowNs env urgent).2.generation = b.generation := by
  refine ⟨⟨nowNs, b.ring.producer.nextSequence, ?_⟩, rfl, ?_⟩
  · have hbuttons : b.frame.buttons = buttonsAfter frame.buttons frame.events := by
      rw [h]
      rfl
    rw [← hbuttons]
    rfl
  · simp only [publishTerminal, writeUrgent_generation]
    exact publishRecord_generation _ _ _

end

/-! ## The run -/

namespace OwnEvents

variable {s t : Replugged}

/-- A generation that has just begun, on the clean frame of its device. -/
theorem opened {b : InputBridge} {number : UInt64} {keys : Option KeyBitmap}
    (hnumber : b.generation = number) (hframe : b.frame = cleanFrame (openMask keys)) :
    OwnEvents ⟨b, .opened number keys⟩ where
  number := hnumber
  frame := hframe.trans (accumulated_nil _).symm
  clean := fun _ => hframe
  records := .nil
  terminal := by simp [Generation.opened]

/-- Some events more, and the records that they complete. -/
theorem process (h : OwnEvents s) (readings : List Reading)
    (hrunning : s.current.terminal.isNone = true) {b : InputBridge}
    (hframe : b.frame = (processInput s.bridge readings).2.frame)
    (hgeneration : b.generation = s.bridge.generation) :
    OwnEvents ⟨b, { s.current with
      read := s.current.read ++ eventsOf readings
      records := s.current.records ++ recordsOf (processInput s.bridge readings).1 }⟩ where
  number := hgeneration.trans h.number
  frame := by
    rw [hframe, processInput_accumulated h.frame, Generation.pending, Generation.pending,
      splitFrames_append]
  clean := by
    intro hread
    obtain ⟨hnone, hevents⟩ := List.append_eq_nil_iff.1 hread
    rw [hframe, List.map_eq_nil_iff.1 hevents]
    exact h.clean hnone
  records := by
    rw [splitFrames_append]
    exact List.rel_append h.records (processInput_frames ⟨0, h.frame⟩ readings).1
  terminal := by
    intro record hrecord
    rw [Option.isNone_iff_eq_none.1 hrunning] at hrecord
    cases hrecord

/-- What touches neither the frame nor the generation. -/
theorem keep (h : OwnEvents s) {b : InputBridge} (hframe : b.frame = s.bridge.frame)
    (hgeneration : b.generation = s.bridge.generation) : OwnEvents ⟨b, s.current⟩ where
  number := hgeneration.trans h.number
  frame := hframe.trans h.frame
  clean := fun hread => hframe.trans (h.clean hread)
  records := h.records
  terminal := h.terminal

/-- Every call keeps the records its own, if it opens no device on a frame
that leaves something. -/
theorem step (h : OwnEvents s) {call : DeviceCall} (hclean : CleanReconnect s call)
    (hstep : deviceMachine.step s call = some t) : OwnEvents t := by
  simp only [deviceMachine, Option.ite_none_right_eq_some, Bool.and_eq_true,
    Option.some.injEq] at hstep
  obtain ⟨⟨hready, hallowed⟩, rfl⟩ := hstep
  cases call with
  | poll reads hangup gone hungUp =>
    obtain ⟨hpublications, hframe, hgeneration⟩ :=
      call_poll s.bridge reads hangup gone hungUp
    simp only [DeviceCall.main, Generation.after, hpublications]
    exact h.process _ hallowed hframe hgeneration
  | control received nowNs urgent =>
    exact h.keep rfl (handleControlMessage_generation s.bridge.toBridge nowNs urgent received)
  | reconnect fd env keys =>
    have hdevice : s.bridge.config.devicePath = true := (Bool.and_eq_true_iff.1 hready).1
    have hgeneration := reconnect_generation s.bridge fd env hdevice
    by_cases hfd : fd < 0
    · rw [if_pos hfd] at hgeneration
      simp only [Generation.after, if_pos hfd]
      exact h.keep rfl hgeneration
    · rw [if_neg hfd] at hgeneration
      simp only [Generation.after, if_neg hfd]
      apply opened
      · exact hgeneration.trans (congrArg (· + 1) h.number)
      · have hleaves := hclean.resolve_left hfd
        exact h.frame.trans hleaves.accumulated
  | terminal nowNs env urgent =>
    obtain ⟨hrecord, hframe, hgeneration⟩ :=
      publishTerminal_record s.bridge nowNs env urgent h.frame
    have hkept := h.keep hframe hgeneration
    refine ⟨hkept.number, hkept.frame, hkept.clean, hkept.records, ?_⟩
    intro record hsome
    obtain rfl := Option.some.inj hsome
    exact hrecord

/-- The condition is needed: a reconnect keeps the records its own only on a
frame that leaves nothing. -/
theorem reconnect_iff (h : OwnEvents s) {fd : Int32} {env : DeviceStateEnv}
    {keys : Option KeyBitmap} (hfd : ¬ fd < 0)
    (hlt : s.current.pending.events.length < 2 ^ 31)
    (hstep : deviceMachine.step s (.reconnect fd env keys) = some t) :
    OwnEvents t ↔ LeavesNothing s.current.pending (openMask keys) := by
  constructor
  case mpr =>
    intro hleaves
    have hclean : CleanReconnect s (.reconnect fd env keys) := Or.inr hleaves
    exact h.step hclean hstep
  intro ht
  simp only [deviceMachine, Option.ite_none_right_eq_some, Option.some.injEq] at hstep
  obtain ⟨-, rfl⟩ := hstep
  have hframe : s.bridge.frame = s.current.pending.accumulated := h.frame
  have hclean := ht.clean
  simp only [Generation.after, if_neg hfd] at hclean
  rw [← leavesNothing_iff hlt, ← hframe]
  exact hclean rfl

end OwnEvents

/-- The start barrier leaves the clean frame of the device. -/
theorem discardPendingInput_frame {b b' : InputBridge} {reads : List DeviceRead}
    {keys : Option KeyBitmap} (hopen : 0 ≤ b.inputFd)
    (h : discardPendingInput b reads keys = (0, b')) :
    b'.frame = cleanFrame (openMask keys) := by
  have hnot : ¬ b.inputFd < 0 := by simpa using hopen
  rw [discardPendingInput, if_neg hnot] at h
  split at h
  · cases h
  · cases h
    cases keys with
    | none => simp only [refreshButtonState, openMask, Option.map_none, Option.getD_none, ite_self]
    | some keys =>
      rw [refreshButtonState, if_neg hnot]
      rfl

/-- From the start barrier on, in every run whose reconnects find a frame
that leaves nothing to the opened device, every generation starts with the
clean frame of its device, and all that it publishes is decoded from its own
events. -/
theorem generations_clean {b b' : InputBridge} {reads : List DeviceRead}
    {keys : Option KeyBitmap} {calls : List DeviceCall} {s : Replugged}
    (hopen : 0 ≤ b.inputFd) (hdiscard : discardPendingInput b reads keys = (0, b'))
    (hrun : (deviceMachine.guard CleanReconnect).run (.start b' keys) calls = some s) :
    OwnEvents s := by
  refine Machine.run_invariant OwnEvents ?_ ?_ hrun
  · intro s call t hs hstep
    obtain ⟨hclean, hstep⟩ := Machine.guard_step.1 hstep
    exact hs.step hclean hstep
  · exact .opened rfl (discardPendingInput_frame hopen hdiscard)

/-- A device on which no key is held. -/
def noKeys : KeyBitmap := Vector.replicate _ 0

/-- A device that is opened again. -/
def replug : DeviceCall := .reconnect 7 ⟨.done, .done⟩ (some noKeys)

/-- A poll that reads some events, and then the end of the device. -/
def lastPoll (events : List InputEvent) : DeviceCall :=
  .poll (some [.events (events.map quietReading), .eof]) true ⟨.done, .done⟩ ⟨.done, .done⟩

/-- A poll that reads some events of a device that stays. -/
def pollEvents (events : List InputEvent) : DeviceCall :=
  .poll (some [.events (events.map quietReading)]) false ⟨.done, .done⟩ ⟨.done, .done⟩

/-- The bridge behind the start barrier, with a device without keys. -/
def startedInput : InputBridge :=
  (discardPendingInput (freshInput 64) [] (some noKeys)).2

/-- A device that is lost behind a report. -/
def cleanReplug : List DeviceCall :=
  [lastPoll [untimed EV_REL REL_X 5, untimed EV_SYN SYN_REPORT 0], replug,
    pollEvents [untimed EV_REL REL_X 2, untimed EV_SYN SYN_REPORT 0,
      untimed EV_KEY BTN_LEFT 1], .terminal 0 quietEnv .done]

theorem generations_clean_replug :
    ∃ s, (deviceMachine.guard CleanReconnect).run
      (.start startedInput (some noKeys)) cleanReplug = some s ∧ OwnEvents s ∧
      s.current.number = 2 ∧ s.current.records.map (·.dx) = [2] := by
  have hrun : (deviceMachine.guard CleanReconnect).run
      (.start startedInput (some noKeys)) cleanReplug = some _ := rfl
  have hdiscard : discardPendingInput (freshInput 64) [] (some noKeys) =
      (0, startedInput) := rfl
  exact ⟨_, hrun, generations_clean (b := freshInput 64) (by decide) hdiscard hrun,
    by decide, by decide⟩

/-- A device that is lost in the middle of a frame, with a held button. -/
def tornReplug : List DeviceCall :=
  [lastPoll [untimed EV_REL REL_X 5, untimed EV_KEY BTN_LEFT 1], replug,
    pollEvents [untimed EV_SYN SYN_REPORT 0]]

/-- The second generation reads a report alone, and its record has the
motion, the button and the flags of the first one. -/
theorem phantom_frame_after_reconnect :
    ∃ s, deviceMachine.run (.start startedInput (some noKeys)) tornReplug = some s ∧
      ¬ OwnEvents s ∧ s.current.number = 2 ∧
      s.current.read = [untimed EV_SYN SYN_REPORT 0] ∧
      s.current.records.map (fun record => (record.dx, record.buttons, record.flags)) =
        [(5, HFIOR_BUTTON_LEFT, HFIOR_RECORD_MOTION ||| HFIOR_RECORD_BUTTON)] := by
  have hrun : deviceMachine.run (.start startedInput (some noKeys)) tornReplug =
      some _ := rfl
  refine ⟨_, hrun, ?_, by decide, by decide, by decide⟩
  intro h
  have hrecord := (List.forall₂_cons.1 h.records).1
  obtain ⟨time, nowNs, sequence, heq⟩ := hrecord
  have hdx : (5 : Int32) = 0 := congrArg Record.dx heq
  exact absurd hdx (by decide)

end Hfior
