import Hfior.Bridge.Basic

/-!
# Control messages and reconnects

`handle_control_message`, `mark_device_gone` and `try_reconnect_device`.

* `ackValid_iff` reads the test of the ACK branch as a range of positions;
* `represents_handleAck` says that an ACK releases, or does nothing;
* `handleControlMessage_cases` says what any received datagram can do.
-/

namespace Hfior

/-! ## `handle_control_message` -/

/-- The test that the ACK branch makes before it moves the tail. -/
def ackValid (b : Bridge) (ack : AckMessage) : Bool :=
  !(ack.generation != b.generation ||
    ack.consumedTail < b.ring.consumer.tail ||
    ack.consumedTail > b.ring.producer.head ||
    b.ring.producer.head - ack.consumedTail > b.ring.metadata.capacity.toUInt64)

/-- The stores and counters of an accepted ACK. -/
def acceptAck (b : Bridge) (ack : AckMessage) (nowNs : UInt64) : Bridge :=
  { b with
    ring.consumer := { b.ring.consumer with
      tail := ack.consumedTail
      drains := b.ring.consumer.drains + 1
      recordsConsumed := b.ring.consumer.recordsConsumed +
        (ack.consumedTail - b.ring.consumer.tail)
      heartbeatNs := nowNs }
    stats.acknowledgements := b.stats.acknowledgements + 1 }

/-- The counter of a rejected ACK. -/
def countInvalidAck (b : Bridge) : Bridge :=
  { b with stats.invalidAcknowledgements :=
      b.stats.invalidAcknowledgements + 1 }

/-- The ACK branch of `handle_control_message`. -/
def handleAck (b : Bridge) (ack : AckMessage) (nowNs : UInt64)
    (urgent : IoResult) : Bridge :=
  if ackValid b ack then acceptAck b ack nowNs
  else writeUrgent (countInvalidAck b) urgent

/-- `HFIOR_MODE_HFIOR <= mode && mode <= HFIOR_MODE_EAGER_FRAME`. -/
def modeValid (mode : UInt32) : Bool :=
  HFIOR_MODE_HFIOR ≤ mode && mode ≤ HFIOR_MODE_EAGER_FRAME

/-- The SET_MODE branch of `handle_control_message`. -/
def handleSetMode (b : Bridge) (setMode : SetModeMessage) : Bridge :=
  if modeValid setMode.mode then { b with
    mode := setMode.mode
    ring.consumer.deadlineNs := setMode.requestedDeadlineNs }
  else b

/-- The size of the buffer that `recv` fills. -/
def controlBufferSize : Nat := 256

/-- What `handle_control_message` returns, leaves and answers. -/
structure ControlResult where
  rc : Int32
  bridge : Bridge
  reply : Option MessageHeader := none

/-- `stop_requested = 1`. -/
def requestStop (b : Bridge) : Bridge := { b with stopRequested := true }

def countControlMessage (b : Bridge) : Bridge :=
  { b with stats.controlMessages := b.stats.controlMessages + 1 }

def countMalformedMessage (b : Bridge) : Bridge :=
  { b with stats.malformedMessages := b.stats.malformedMessages + 1 }

/-- The dispatch of `handle_control_message` on a well-formed buffer. -/
def dispatchControl (b : Bridge) (buffer : List UInt8) (nowNs : UInt64)
    (urgent : IoResult) : ControlResult :=
  let header := messageHeader buffer
  if header.type == HFIOR_MSG_SET_MODE &&
      buffer.length == sizeofSetModeMessage then
    { rc := 0, bridge := handleSetMode b (setModeMessage buffer) }
  else if header.type == HFIOR_MSG_ACK && buffer.length == sizeofAckMessage then
    { rc := 0, bridge := handleAck b (ackMessage buffer) nowNs urgent }
  else if header.type == HFIOR_MSG_STOP then
    { rc := 0, bridge := requestStop b }
  else if header.type == HFIOR_MSG_PING then
    { rc := 0, bridge := b
      reply := some ⟨HFIOR_MSG_PONG, UInt32.ofNat sizeofMessageHeader⟩ }
  else { rc := 0, bridge := b }

/-- `header->size == bytes`, on a buffer that holds a header. -/
def wellFormed (buffer : List UInt8) : Bool :=
  sizeofMessageHeader ≤ buffer.length &&
    (messageHeader buffer).size == UInt32.ofNat buffer.length

/-- `handle_control_message` on the result of its non-blocking `recv`: an
error, or a datagram, of which the first 256 bytes arrive. -/
def handleControlMessage (b : Bridge) (received : Except Errno (List UInt8))
    (nowNs : UInt64) (urgent : IoResult) : ControlResult :=
  match received with
  | .error .EAGAIN | .error .EINTR => { rc := 0, bridge := b }
  | .error _ => { rc := -1, bridge := b }
  | .ok datagram =>
    let buffer := datagram.take controlBufferSize
    if buffer.length == 0 then { rc := 0, bridge := requestStop b }
    else if !wellFormed buffer then
      { rc := 0, bridge := countMalformedMessage (countControlMessage b) }
    else dispatchControl (countControlMessage b) buffer nowNs urgent

section
variable {b : Bridge} {log : List Record} {ack : AckMessage}

/-- On a represented ring the ACK test is the generation and the range
`[tail, head]`: the capacity test never fails beyond them. -/
theorem ackValid_iff (h : Represents b.ring log) :
    ackValid b ack = true ↔ ack.generation = b.generation ∧
      b.ring.consumer.tail.toNat ≤ ack.consumedTail.toNat ∧
      ack.consumedTail.toNat ≤ log.length := by
  have hwithin := h.le_tail
  simp only [ackValid, Bool.not_eq_true', Bool.or_eq_false_iff,
    bne_eq_false_iff_eq, decide_eq_false_iff_not, gt_iff_lt,
    UInt64.lt_iff_toNat_lt, Nat.not_lt, h.head, UInt32.toNat_toUInt64]
  constructor
  · rintro ⟨⟨⟨hgen, hlo⟩, hhi⟩, -⟩
    exact ⟨hgen, hlo, hhi⟩
  · rintro ⟨hgen, hlo, hhi⟩
    have hle : ack.consumedTail ≤ b.ring.producer.head := by
      rw [UInt64.le_iff_toNat_le, h.head]
      exact hhi
    refine ⟨⟨⟨hgen, hlo⟩, hhi⟩, ?_⟩
    rw [UInt64.toNat_sub_of_le _ _ hle, h.head]
    omega

/-- A rejected ACK leaves the window alone. -/
theorem sameWindow_handleAck_of_invalid (hack : ackValid b ack = false)
    (nowNs : UInt64) (urgent : IoResult) :
    SameWindow b.ring (handleAck b ack nowNs urgent).ring := by
  rw [handleAck, hack]
  exact sameWindow_writeUrgent (countInvalidAck b) urgent

/-- An accepted ACK moves the tail to its position. -/
theorem handleAck_tail_of_valid (hack : ackValid b ack = true)
    (nowNs : UInt64) (urgent : IoResult) :
    (handleAck b ack nowNs urgent).ring.consumer.tail = ack.consumedTail := by
  rw [handleAck, hack]
  rfl

theorem handleAck_tail_of_invalid (hack : ackValid b ack = false)
    (nowNs : UInt64) (urgent : IoResult) :
    (handleAck b ack nowNs urgent).ring.consumer.tail = b.ring.consumer.tail :=
  (sameWindow_handleAck_of_invalid hack nowNs urgent).tail

variable (b ack) in
/-- Every ACK leaves the geometry, the head and the slots alone. -/
theorem handleAck_frame (nowNs : UInt64) (urgent : IoResult) :
    (handleAck b ack nowNs urgent).ring.metadata = b.ring.metadata ∧
    (handleAck b ack nowNs urgent).ring.producer.head = b.ring.producer.head ∧
    (handleAck b ack nowNs urgent).ring.records = b.ring.records := by
  cases hack : ackValid b ack with
  | true =>
    rw [handleAck, hack]
    exact ⟨rfl, rfl, rfl⟩
  | false =>
    have h := sameWindow_handleAck_of_invalid hack nowNs urgent
    exact ⟨h.metadata, h.head, h.records⟩

@[simp] theorem handleAck_generation (nowNs : UInt64) (urgent : IoResult) :
    (handleAck b ack nowNs urgent).generation = b.generation := by
  unfold handleAck
  split <;> simp [acceptAck, countInvalidAck]

@[simp] theorem handleAck_producer_generation (nowNs : UInt64)
    (urgent : IoResult) :
    (handleAck b ack nowNs urgent).ring.producer.generation =
      b.ring.producer.generation := by
  unfold handleAck
  split <;> simp [acceptAck, countInvalidAck]

variable (b ack) in
theorem sameLedger_handleAck (nowNs : UInt64) (urgent : IoResult) :
    SameLedger b.ring (handleAck b ack nowNs urgent).ring := by
  have hcount : SameLedger b.ring (countInvalidAck b).ring := ⟨rfl, rfl⟩
  unfold handleAck
  split
  · exact ⟨rfl, rfl⟩
  · exact hcount.trans (sameLedger_writeUrgent _ urgent)

@[simp] theorem handleAck_mode (nowNs : UInt64) (urgent : IoResult) :
    (handleAck b ack nowNs urgent).mode = b.mode := by
  unfold handleAck
  split <;> simp [acceptAck, countInvalidAck]

/-- The ACK branch keeps the accepted records: it releases, or it does
nothing. -/
theorem represents_handleAck (h : Represents b.ring log) (ack : AckMessage)
    (nowNs : UInt64) (urgent : IoResult) :
    Represents (handleAck b ack nowNs urgent).ring log := by
  obtain ⟨hmeta, hhead, hrecords⟩ := handleAck_frame b ack nowNs urgent
  cases hack : ackValid b ack with
  | true =>
    obtain ⟨-, hlo, hhi⟩ := (ackValid_iff h).1 hack
    rw [← handleAck_tail_of_valid hack nowNs urgent] at hlo hhi
    exact h.release hmeta hhead hrecords hlo hhi
  | false => exact h.sameWindow (sameWindow_handleAck_of_invalid hack nowNs urgent)

end

/-! ## What a datagram can do -/

/-- Nothing that a client may see of the bridge has changed. -/
structure Quiet (b b' : Bridge) : Prop where
  window : SameWindow b.ring b'.ring
  mode : b'.mode = b.mode
  generation : b'.generation = b.generation
  producerGeneration :
    b'.ring.producer.generation = b.ring.producer.generation
  ledger : SameLedger b.ring b'.ring

theorem Quiet.refl (b : Bridge) : Quiet b b :=
  ⟨SameWindow.refl _, rfl, rfl, rfl, SameLedger.refl _⟩

theorem Quiet.trans {b b' b'' : Bridge} (h : Quiet b b') (h' : Quiet b' b'') :
    Quiet b b'' :=
  ⟨h.1.trans h'.1, h'.2.trans h.2, h'.3.trans h.3, h'.4.trans h.4,
    h.5.trans h'.5⟩

/-- An ACK datagram that the bridge accepts: exactly the size of an ACK,
of the current generation, and of a position from the tail to the head. -/
structure AcceptedAck (b : Bridge) (datagram : List UInt8) : Prop where
  length : datagram.length = sizeofAckMessage
  type : (messageHeader datagram).type = HFIOR_MSG_ACK
  size : (messageHeader datagram).size = UInt32.ofNat sizeofAckMessage
  valid : ackValid b (ackMessage datagram) = true

/-- A SET_MODE datagram that the bridge accepts. -/
structure AcceptedSetMode (datagram : List UInt8) : Prop where
  length : datagram.length = sizeofSetModeMessage
  type : (messageHeader datagram).type = HFIOR_MSG_SET_MODE
  size : (messageHeader datagram).size = UInt32.ofNat sizeofSetModeMessage
  valid : modeValid (setModeMessage datagram).mode = true

section
variable (b : Bridge) (nowNs : UInt64) (urgent : IoResult)

private theorem quiet_handleAck_aux {b b' : Bridge} (hb : Quiet b b')
    {ack : AckMessage} (hack : ackValid b' ack = false) :
    Quiet b (handleAck b' ack nowNs urgent) where
  window := hb.window.trans (sameWindow_handleAck_of_invalid hack nowNs urgent)
  mode := by rw [handleAck_mode, hb.mode]
  generation := by rw [handleAck_generation, hb.generation]
  producerGeneration := by
    rw [handleAck_producer_generation, hb.producerGeneration]
  ledger := hb.ledger.trans (sameLedger_handleAck b' ack nowNs urgent)

/-- Any result of `recv` is an accepted ACK, an accepted SET_MODE, or it
leaves the window, the mode and the generation alone. -/
theorem handleControlMessage_cases (received : Except Errno (List UInt8)) :
    (∃ datagram, received = .ok datagram ∧ AcceptedAck b datagram ∧
      (handleControlMessage b received nowNs urgent).bridge =
        acceptAck (countControlMessage b) (ackMessage datagram) nowNs) ∨
    (∃ datagram, received = .ok datagram ∧ AcceptedSetMode datagram ∧
      (handleControlMessage b received nowNs urgent).bridge =
        handleSetMode (countControlMessage b) (setModeMessage datagram)) ∨
    Quiet b (handleControlMessage b received nowNs urgent).bridge := by
  have hcount : Quiet b (countControlMessage b) := ⟨⟨rfl, rfl, rfl, rfl⟩, rfl, rfl, rfl, ⟨rfl, rfl⟩⟩
  rcases received with errno | datagram
  · right; right
    cases errno <;> exact Quiet.refl b
  · simp only [handleControlMessage]
    -- A buffer of 24 bytes is a whole datagram: the truncation at 256 bytes
    -- is not seen.
    have hwhole : (datagram.take controlBufferSize).length = 24 →
        datagram.take controlBufferSize = datagram := by
      intro h
      apply List.take_of_length_le
      rw [List.length_take, controlBufferSize] at h
      rw [controlBufferSize]
      omega
    generalize datagram.take controlBufferSize = buffer at hwhole ⊢
    split
    · exact .inr (.inr ⟨⟨rfl, rfl, rfl, rfl⟩, rfl, rfl, rfl, ⟨rfl, rfl⟩⟩)
    split
    · exact .inr (.inr ⟨⟨rfl, rfl, rfl, rfl⟩, rfl, rfl, rfl, ⟨rfl, rfl⟩⟩)
    rename_i hwell
    simp only [Bool.not_eq_true', Bool.not_eq_false, wellFormed,
      Bool.and_eq_true, beq_iff_eq] at hwell
    have hsize := hwell.2
    simp only [dispatchControl, Bool.and_eq_true, beq_iff_eq]
    split
    · rename_i h
      rw [h.2] at hsize
      obtain rfl := hwhole h.2
      cases hmode : modeValid (setModeMessage buffer).mode with
      | true => exact .inr (.inl ⟨_, rfl, ⟨h.2, h.1, hsize, hmode⟩, rfl⟩)
      | false =>
        simp only [handleSetMode, hmode]
        exact .inr (.inr hcount)
    split
    · rename_i h
      rw [h.2] at hsize
      obtain rfl := hwhole h.2
      cases hack : ackValid b (ackMessage buffer) with
      | true =>
        refine .inl ⟨_, rfl, ⟨h.2, h.1, hsize, hack⟩, ?_⟩
        exact if_pos hack
      | false =>
        exact .inr (.inr (quiet_handleAck_aux nowNs urgent hcount hack))
    split
    · exact .inr (.inr ⟨⟨rfl, rfl, rfl, rfl⟩, rfl, rfl, rfl, ⟨rfl, rfl⟩⟩)
    split
    · exact .inr (.inr hcount)
    · exact .inr (.inr hcount)

/-- No datagram touches the counters of the attempts. -/
theorem sameLedger_handleControlMessage (received : Except Errno (List UInt8)) :
    SameLedger b.ring (handleControlMessage b received nowNs urgent).bridge.ring := by
  rcases handleControlMessage_cases b nowNs urgent received with
    ⟨datagram, -, -, hbridge⟩ | ⟨datagram, -, -, hbridge⟩ | hquiet
  · rw [hbridge]
    exact ⟨rfl, rfl⟩
  · rw [hbridge, handleSetMode]
    split <;> exact ⟨rfl, rfl⟩
  · exact hquiet.ledger

/-- An encoded ACK reaches the ACK branch. -/
theorem handleControlMessage_ackBytes (ack : AckMessage) :
    (handleControlMessage b (.ok ack.bytes) nowNs urgent).bridge =
      handleAck (countControlMessage b) ack nowNs urgent := by
  have hlength := ack.bytes_length
  have hwell : wellFormed ack.bytes = true := by
    rw [wellFormed, hlength, messageHeader_ackBytes]
    rfl
  have htake : ack.bytes.take controlBufferSize = ack.bytes :=
    List.take_of_length_le (by rw [hlength]; decide)
  simp only [handleControlMessage, htake, hlength, hwell, dispatchControl,
    messageHeader_ackBytes, ackMessage_bytes]
  rfl

end

/-! ## Device loss and reconnect -/

/-- The input descriptor is closed, and the loss is counted. -/
def closeInputDevice (b : Bridge) : Bridge :=
  { b with
    inputFd := if b.inputFd ≥ 0 then -1 else b.inputFd
    sourceReady := false
    stats.deviceDisconnects := b.stats.deviceDisconnects + 1 }

/-- `mark_device_gone`. -/
def markDeviceGone (b : Bridge) (send urgent : IoResult) :
    Bridge × Option DeviceStateMessage :=
  sendDeviceState (closeInputDevice b) HFIOR_RECORD_DEVICE_GONE send urgent

/-- `open_input_device`, where `fd` is the result of `open`. -/
def openInputDevice (b : Bridge) (fd : Int32) : Int32 × Bridge :=
  if !b.config.devicePath then (0, b)
  else if fd < 0 then (-1, b)
  else (0, { b with inputFd := fd, sourceReady := true })

/-- The next generation, in the bridge and in the ring, and the two
reconnect counters. -/
def bumpGeneration (b : Bridge) : Bridge :=
  { b with
    generation := b.generation + 1
    ring.producer.generation := b.generation + 1
    ring.stats.deviceReconnects := b.ring.stats.deviceReconnects + 1
    stats.deviceReconnects := b.stats.deviceReconnects + 1 }

/-- `try_reconnect_device`: the return value, the bridge, and the
DEVICE_STATE message if the socket took it. -/
def tryReconnectDevice (b : Bridge) (fd : Int32) (send urgent : IoResult) :
    Int32 × Bridge × Option DeviceStateMessage :=
  if !b.config.devicePath then (0, b, none)
  else
    let opened := openInputDevice b fd
    if opened.1 != 0 then (-1, opened.2, none)
    else (0, sendDeviceState (bumpGeneration opened.2)
      HFIOR_RECORD_DEVICE_READY send urgent)

section
variable (b : Bridge) (send urgent : IoResult)

theorem quiet_writeUrgent : Quiet b (writeUrgent b urgent) :=
  ⟨sameWindow_writeUrgent b urgent, by simp, by simp, by simp,
    sameLedger_writeUrgent b urgent⟩

theorem quiet_sendDeviceState (flags : UInt16) :
    Quiet b (sendDeviceState b flags send urgent).1 := by
  unfold sendDeviceState
  split
  · exact Quiet.refl b
  · exact quiet_writeUrgent b urgent

/-- A lost device changes nothing that the ring protocol reads. -/
theorem quiet_markDeviceGone : Quiet b (markDeviceGone b send urgent).1 := by
  have hclose : Quiet b (closeInputDevice b) := ⟨⟨rfl, rfl, rfl, rfl⟩, rfl, rfl, rfl, ⟨rfl, rfl⟩⟩
  exact hclose.trans (quiet_sendDeviceState _ send urgent _)

/-- A reconnect that changes the generation of the bridge and of the
ring. -/
structure Reconnected (b b' : Bridge) : Prop where
  window : SameWindow b.ring b'.ring
  mode : b'.mode = b.mode
  generation : b'.generation = b.generation + 1
  producerGeneration : b'.ring.producer.generation = b.generation + 1
  ledger : SameLedger b.ring b'.ring

/-- A reconnect attempt does nothing, or it moves to the next generation
and keeps the window. -/
theorem tryReconnectDevice_cases (fd : Int32) :
    Quiet b (tryReconnectDevice b fd send urgent).2.1 ∨
      Reconnected b (tryReconnectDevice b fd send urgent).2.1 := by
  unfold tryReconnectDevice
  split
  · exact .inl (Quiet.refl b)
  rename_i hdevice
  rw [openInputDevice, if_neg hdevice]
  split
  · exact .inl (Quiet.refl b)
  · have hquiet := quiet_sendDeviceState
      (bumpGeneration { b with inputFd := fd, sourceReady := true }) send urgent
      HFIOR_RECORD_DEVICE_READY
    have hbump : SameWindow b.ring
        (bumpGeneration { b with inputFd := fd, sourceReady := true }).ring :=
      ⟨rfl, rfl, rfl, rfl⟩
    have hcounters : SameLedger b.ring
        (bumpGeneration { b with inputFd := fd, sourceReady := true }).ring :=
      ⟨rfl, rfl⟩
    exact .inr ⟨hbump.trans hquiet.window, hquiet.mode, hquiet.generation,
      hquiet.producerGeneration, hcounters.trans hquiet.ledger⟩

end

end Hfior
