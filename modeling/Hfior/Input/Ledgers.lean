import Hfior.Input.MainLoop

/-!
# The ledgers of the bridge

The bridge counts in its ring, in its own statistics, and in the numbers of
its records.  `LedgersAgree` says that all of these count the same, and
that they count the attempts and the accepted records.

Every call keeps the ledgers.  A call is a publication, an announcement, an
accepted ACK, a lost or a reopened device, or it touches no counter of a
ledger, so there is one lemma for each of these.  `ledgers_agree` is the
run.
-/

namespace Hfior

/-! ## Agreement -/

/-- The counters of the ring and of the bridge agree, and they count the
attempts. -/
structure LedgersAgree (b : Bridge) (attempts : List Attempt) : Prop where
  numbered : Numbered b.ring attempts
  attempted : b.stats.recordsAttempted.toNat = attempts.length
  head : b.ring.producer.head.toNat = (acceptedRecords attempts).length
  ringPublished : b.ring.stats.recordsPublished = b.ring.producer.head
  published : b.stats.recordsPublished = b.ring.producer.head
  ringDrops : b.stats.ringDrops = b.ring.producer.droppedNewest
  consumed : b.ring.consumer.recordsConsumed = b.ring.consumer.tail
  drains : b.ring.consumer.drains = b.stats.acknowledgements
  motion : b.ring.stats.motionFrames.toNat =
    (acceptedRecords attempts).countP (·.has HFIOR_RECORD_MOTION)
  button : b.ring.stats.buttonFrames.toNat =
    (acceptedRecords attempts).countP (·.has HFIOR_RECORD_BUTTON)
  wheel : b.ring.stats.wheelFrames.toNat =
    (acceptedRecords attempts).countP (·.has HFIOR_RECORD_WHEEL)
  synDropped : b.ring.stats.synDroppedFrames.toNat =
    (acceptedRecords attempts).countP (·.has HFIOR_RECORD_SYN_DROPPED)
  transitions : b.stats.buttonTransitions = b.ring.stats.buttonFrames
  eagerSent : b.stats.eagerPacketsSent = b.ring.stats.eagerPacketsSent
  eagerDrops : b.stats.eagerSendDrops = b.ring.producer.eagerSendDrops
  urgentWrites : b.stats.urgentWrites = b.ring.producer.urgentWrites
  generation : b.generation = b.ring.producer.generation
  reconnects : b.stats.deviceReconnects = b.ring.stats.deviceReconnects
  reconnected : b.generation = 1 + b.stats.deviceReconnects
  gone : b.stats.deviceDisconnects - b.stats.deviceReconnects =
    if b.config.devicePath && b.inputFd < 0 then 1 else 0

/-! ## Publications -/

section
variable (b : Bridge) (beginNs endNs : UInt64) (record : Record)

/-- The two results of a publish. -/
theorem ringPublish_of_true {r : RingHeader} (h : (ringPublish r record).1 = true) :
    (ringPublish r record).2 =
      storeHead (writeSlot r r.producer.head record) r.producer.head record := by
  unfold ringPublish at h ⊢
  dsimp only at h ⊢
  split at h
  · cases h
  · rename_i hroom
    rw [if_neg hroom]

theorem ringPublish_of_false {r : RingHeader} (h : (ringPublish r record).1 = false) :
    (ringPublish r record).2 = dropNewest r := by
  unfold ringPublish at h ⊢
  dsimp only at h ⊢
  split at h
  · rename_i hfull
    rw [if_pos hfull]
  · cases h

/-- All that an accepted attempt changes. -/
theorem publishAttempt_of_published
    (h : (publishAttempt b beginNs endNs record).1.published = true) :
    let sent := (publishAttempt b beginNs endNs record).1.record
    ∃ trace, (publishAttempt b beginNs endNs record).2 = { b with
      stats := { b.stats with
        recordsAttempted := b.stats.recordsAttempted + 1
        recordsPublished := b.stats.recordsPublished + 1
        buttonTransitions := b.stats.buttonTransitions +
          if sent.has HFIOR_RECORD_BUTTON then 1 else 0 }
      ring := storeHead (writeSlot (allocateSequence b.ring beginNs)
        b.ring.producer.head sent) b.ring.producer.head sent
      publicationTrace := trace } := by
  have hring := ringPublish_of_true _ h
  have haccepted : (ringPublish (allocateSequence b.ring beginNs)
      { record with sequence := b.ring.producer.nextSequence }).1 = true := h
  intro sent
  simp only [publishAttempt, haccepted, if_true]
  obtain ⟨trace, htrace⟩ := tracePublication_frame _ _
  rw [htrace, hring]
  refine ⟨trace, ?_⟩
  unfold accountRecordFlags
  split
  · rename_i hbutton
    have hsent : sent.has HFIOR_RECORD_BUTTON = true := hbutton
    simp only [hsent, if_true]
    rfl
  · rename_i hbutton
    have hsent : ¬ sent.has HFIOR_RECORD_BUTTON = true := hbutton
    simp only [if_neg hsent, UInt64.add_zero]
    rfl

/-- All that a dropped attempt changes. -/
theorem publishAttempt_of_dropped
    (h : (publishAttempt b beginNs endNs record).1.published = false) :
    ∃ trace, (publishAttempt b beginNs endNs record).2 = { b with
      stats := { b.stats with
        recordsAttempted := b.stats.recordsAttempted + 1
        ringDrops := b.stats.ringDrops + 1 }
      ring := dropNewest (allocateSequence b.ring beginNs)
      publicationTrace := trace } := by
  have hring := ringPublish_of_false _ h
  have hdropped : (ringPublish (allocateSequence b.ring beginNs)
      { record with sequence := b.ring.producer.nextSequence }).1 = false := h
  simp only [publishAttempt, hdropped, Bool.false_eq_true, if_false]
  obtain ⟨trace, htrace⟩ := tracePublication_frame _ _
  rw [htrace, hring]
  exact ⟨trace, rfl⟩

end

/-- A counter that takes one more. -/
theorem toNat_add_one {m : UInt64} {n : Nat} (h : m.toNat = n) (hlt : n + 1 < 2 ^ 64) :
    (m + 1).toNat = n + 1 := by
  rw [UInt64.toNat_add, UInt64.toNat_one, h, Nat.mod_eq_of_lt hlt]

/-- A counter of the records with a flag. -/
theorem toNat_add_flag {m : UInt64} {records : List Record} {mask : UInt16}
    (h : m.toNat = records.countP (·.has mask)) (hlt : records.length + 1 < 2 ^ 64)
    (record : Record) :
    (m + if record.has mask then 1 else 0).toNat =
      (records ++ [record]).countP (·.has mask) := by
  have hle : records.countP (·.has mask) ≤ records.length := List.countP_le_length
  rw [List.countP_append]
  cases hflag : record.has mask with
  | true =>
    simp only [if_true, List.countP_singleton, hflag]
    exact toNat_add_one h (by omega)
  | false => simpa [hflag] using h

namespace LedgersAgree

variable {b : Bridge} {attempts : List Attempt}

/-- An attempt is counted on both sides. -/
theorem attempt (h : LedgersAgree b attempts) (beginNs endNs : UInt64) (record : Record)
    (hlt : attempts.length + 2 < 2 ^ 64) :
    LedgersAgree (publishAttempt b beginNs endNs record).2
      (attempts ++ [(publishAttempt b beginNs endNs record).1]) := by
  have hnumbered := numbered_publishAttempt h.numbered beginNs endNs record hlt
  have hlength : (acceptedRecords attempts).length ≤ attempts.length :=
    acceptedRecords_length_le
  have hattempted : (b.stats.recordsAttempted + 1).toNat =
      (attempts ++ [(publishAttempt b beginNs endNs record).1]).length := by
    rw [List.length_append, List.length_singleton]
    exact toNat_add_one h.attempted (by omega)
  cases hpublished : (publishAttempt b beginNs endNs record).1.published with
  | true =>
    obtain ⟨trace, hframe⟩ := publishAttempt_of_published b beginNs endNs record hpublished
    have haccepted : acceptedRecords (attempts ++ [_]) = acceptedRecords attempts ++ [_] :=
      acceptedRecords_append_of_published hpublished
    rw [hframe] at hnumbered ⊢
    exact { h with
      numbered := hnumbered
      attempted := hattempted
      head := by
        rw [haccepted, List.length_append, List.length_singleton]
        exact toNat_add_one h.head (by omega)
      ringPublished := congrArg (· + 1) h.ringPublished
      published := congrArg (· + 1) h.published
      motion := by
        rw [haccepted]
        exact toNat_add_flag h.motion (by omega) _
      button := by
        rw [haccepted]
        exact toNat_add_flag h.button (by omega) _
      wheel := by
        rw [haccepted]
        exact toNat_add_flag h.wheel (by omega) _
      synDropped := by
        rw [haccepted]
        exact toNat_add_flag h.synDropped (by omega) _
      transitions := by
        simp only [storeHead, writeSlot, allocateSequence, h.transitions] }
  | false =>
    obtain ⟨trace, hframe⟩ := publishAttempt_of_dropped b beginNs endNs record hpublished
    have haccepted : acceptedRecords (attempts ++ [_]) = acceptedRecords attempts :=
      acceptedRecords_append_of_dropped hpublished
    rw [hframe] at hnumbered ⊢
    exact { h with
      numbered := hnumbered
      attempted := hattempted
      head := by
        rw [haccepted]
        exact h.head
      ringDrops := congrArg (· + 1) h.ringDrops
      motion := by
        rw [haccepted]
        exact h.motion
      button := by
        rw [haccepted]
        exact h.button
      wheel := by
        rw [haccepted]
        exact h.wheel
      synDropped := by
        rw [haccepted]
        exact h.synDropped }

/-- An announcement counts the same on both sides. -/
theorem announced (h : LedgersAgree b attempts) (sent dropped written urgentFd : UInt64)
    (stop : Bool) :
    LedgersAgree (announced b sent dropped written urgentFd stop) attempts :=
  { h with
    numbered := h.numbered.sameLedger ⟨rfl, rfl⟩
    eagerSent := congrArg (· + sent) h.eagerSent
    eagerDrops := congrArg (· + dropped) h.eagerDrops
    urgentWrites := congrArg (· + written) h.urgentWrites }

theorem publish (h : LedgersAgree b attempts) (env : PublishEnv) (record : Record)
    (hlt : attempts.length + 2 < 2 ^ 64) :
    LedgersAgree (publishRecord b env record).bridge
      (attempts ++ [(publishRecord b env record).attempt]) := by
  obtain ⟨sent, dropped, written, urgentFd, stop, hsent⟩ := announce_announced
    (publishAttempt b env.beginNs env.endNs record).2
    (publishAttempt b env.beginNs env.endNs record).1 env.send env.dropUrgent env.urgent
  simp only [publishRecord, hsent]
  exact (h.attempt env.beginNs env.endNs record hlt).announced _ _ _ _ _

theorem writeUrgent (h : LedgersAgree b attempts) (urgent : IoResult) :
    LedgersAgree (writeUrgent b urgent) attempts := by
  obtain ⟨written, urgentFd, hwrite⟩ := writeUrgent_announced b urgent
  rw [hwrite]
  exact h.announced _ _ _ _ _

/-! ## Datagrams -/

/-- An accepted ACK moves the tail as far as it counts records. -/
theorem acceptAck (h : LedgersAgree b attempts) (ack : AckMessage) (nowNs : UInt64) :
    LedgersAgree (acceptAck b ack nowNs) attempts :=
  { h with
    numbered := h.numbered.sameLedger ⟨rfl, rfl⟩
    consumed := by
      simp only [Hfior.acceptAck, h.consumed]
      rw [UInt64.add_comm, UInt64.sub_add_cancel]
    drains := congrArg (· + 1) h.drains }

/-- No datagram breaks a ledger. -/
theorem control (h : LedgersAgree b attempts) (received : Except Errno (List UInt8))
    (nowNs : UInt64) (urgent : IoResult) :
    LedgersAgree (handleControlMessage b received nowNs urgent).bridge attempts := by
  have hcount : LedgersAgree (countControlMessage b) attempts := { h with }
  unfold handleControlMessage
  split
  · exact h
  · exact h
  · exact h
  · dsimp only
    split
    · exact { h with }
    split
    · exact { h with }
    unfold dispatchControl
    dsimp only
    split
    · unfold handleSetMode
      split
      · exact { h with numbered := h.numbered.sameLedger ⟨rfl, rfl⟩ }
      · exact hcount
    split
    · unfold handleAck
      split
      · exact hcount.acceptAck _ _
      · have hinvalid : LedgersAgree (countInvalidAck (countControlMessage b)) attempts :=
          { h with }
        exact hinvalid.writeUrgent _
    split
    · exact { h with }
    split <;> exact hcount

/-- The start barrier touches no ledger. -/
theorem barrier (h : LedgersAgree b attempts) (modeReceived : Bool)
    (received : Except Errno (List UInt8)) (armed : Bool) (send : IoResult) :
    LedgersAgree ((barrierMessage b modeReceived received armed send).bridge b) attempts := by
  unfold barrierMessage
  split
  · exact h
  · dsimp only
    split
    · exact h
    split
    · exact { h with }
    unfold dispatchBarrier
    dsimp only
    split
    · split
      · exact { h with }
      · exact h
    split
    · unfold handleStart
      split
      · exact h
      · split
        · exact h
        · exact { h with }
    split <;> exact { h with }

/-! ## Device loss and reconnect -/

theorem sendDeviceState (h : LedgersAgree b attempts) (flags : UInt16)
    (send urgent : IoResult) :
    LedgersAgree (sendDeviceState b flags send urgent).1 attempts := by
  unfold Hfior.sendDeviceState
  split
  · exact h
  · exact h.writeUrgent urgent

/-- A device that is open is lost once. -/
theorem markGone (h : LedgersAgree b attempts) (hdevice : b.config.devicePath = true)
    (hopen : 0 ≤ b.inputFd) (send urgent : IoResult) :
    LedgersAgree (markDeviceGone b send urgent).1 attempts := by
  have hgone := h.gone
  have hnot : ¬ b.inputFd < 0 := by simpa using hopen
  rw [hdevice, decide_eq_false hnot, Bool.and_false, if_neg Bool.false_ne_true] at hgone
  have hclose : LedgersAgree (closeInputDevice b) attempts :=
    { h with
      gone := by
        have hfd : decide ((closeInputDevice b).inputFd < 0) = true := by
          simp only [closeInputDevice, if_pos hopen, ge_iff_le]
          decide
        have hsame : b.stats.deviceDisconnects = b.stats.deviceReconnects := by
          rw [← UInt64.sub_add_cancel b.stats.deviceDisconnects b.stats.deviceReconnects, hgone,
            UInt64.zero_add]
        rw [hfd]
        simp only [closeInputDevice, hdevice, Bool.and_self, if_true, hsame]
        rw [UInt64.add_comm, UInt64.add_sub_cancel] }
  exact hclose.sendDeviceState _ _ _

/-- A lost device is opened again once. -/
theorem reconnect (h : LedgersAgree b attempts) (hdevice : b.config.devicePath = true)
    (hclosed : b.inputFd < 0) (fd : Int32) (send urgent : IoResult) :
    LedgersAgree (tryReconnectDevice b fd send urgent).2.1 attempts := by
  have hgone := h.gone
  rw [hdevice, decide_eq_true hclosed, Bool.and_self, if_pos rfl] at hgone
  have hahead : b.stats.deviceDisconnects = 1 + b.stats.deviceReconnects := by
    rw [← hgone, UInt64.sub_add_cancel]
  have hnot : ¬ (!b.config.devicePath) = true := by simp [hdevice]
  unfold tryReconnectDevice openInputDevice
  rw [if_neg hnot, if_neg hnot]
  by_cases hfd : fd < 0
  · rw [if_pos hfd]
    exact h
  · rw [if_neg hfd]
    have hbump : LedgersAgree (bumpGeneration { b with inputFd := fd, sourceReady := true })
        attempts :=
      { h with
        numbered := h.numbered.sameLedger ⟨rfl, rfl⟩
        generation := rfl
        reconnects := congrArg (· + 1) h.reconnects
        reconnected := by
          simp only [bumpGeneration, h.reconnected, UInt64.add_assoc]
        gone := by
          have hopen : decide (fd < 0) = false := decide_eq_false hfd
          simp only [bumpGeneration, hopen, Bool.and_false, Bool.false_eq_true, if_false, hahead]
          rw [UInt64.add_comm, UInt64.sub_self] }
    exact hbump.sendDeviceState _ _ _

/-! ## The numbers of the records -/

/-- The attempts are the accepted and the dropped ones. -/
theorem length_eq (attempts : List Attempt) : attempts.length =
    (acceptedRecords attempts).length + attempts.countP fun a => !a.published := by
  induction attempts with
  | nil => rfl
  | cons a attempts ih =>
    cases hpublished : a.published with
    | true =>
      simp only [acceptedRecords, List.filter_cons, hpublished, if_true, List.map_cons,
        List.length_cons, List.countP_cons, Bool.not_true, Bool.false_eq_true, if_false] at ih ⊢
      omega
    | false =>
      simp only [acceptedRecords, List.filter_cons, hpublished, Bool.false_eq_true, if_false,
        List.length_cons, List.countP_cons, Bool.not_false, if_true] at ih ⊢
      omega

/-- The next number counts what the head and the drop counter count. -/
theorem sequence_eq (h : LedgersAgree b attempts) :
    b.ring.producer.nextSequence.toNat = 1 + b.stats.recordsAttempted.toNat ∧
      b.stats.recordsAttempted.toNat =
        b.ring.producer.head.toNat + b.ring.producer.droppedNewest.toNat := by
  rw [h.numbered.next, h.attempted, h.head, h.numbered.dropped]
  exact ⟨Nat.add_comm _ _, length_eq attempts⟩

end LedgersAgree

/-- An accepted record is one of the attempts, behind as many accepted ones
as its position says. -/
theorem exists_attempt_of_accepted {attempts : List Attempt} {p : Nat} {record : Record}
    (h : (acceptedRecords attempts)[p]? = some record) :
    ∃ before after, attempts = before ++ ⟨record, true⟩ :: after ∧
      (acceptedRecords before).length = p := by
  induction attempts generalizing p with
  | nil => simp [acceptedRecords] at h
  | cons a attempts ih =>
    obtain ⟨record', published⟩ := a
    cases published with
    | false =>
      obtain ⟨before, after, rfl, hlength⟩ := ih h
      exact ⟨⟨record', false⟩ :: before, after, rfl, hlength⟩
    | true =>
      cases p with
      | zero =>
        obtain rfl : record' = record := Option.some.inj h
        exact ⟨[], attempts, rfl, rfl⟩
      | succ p =>
        obtain ⟨before, after, rfl, hlength⟩ := ih h
        exact ⟨⟨record', true⟩ :: before, after, rfl, congrArg (· + 1) hlength⟩

/-- The number of an accepted record is its position, and the drops before
it. -/
theorem LedgersAgree.position {b : Bridge} {attempts : List Attempt}
    (h : LedgersAgree b attempts) {p : Nat} {record : Record}
    (hrecord : (acceptedRecords attempts)[p]? = some record) :
    ∃ before after, attempts = before ++ ⟨record, true⟩ :: after ∧
      (acceptedRecords before).length = p ∧
      record.sequence.toNat = p + 1 + before.countP fun a => !a.published := by
  obtain ⟨before, after, rfl, hlength⟩ := exists_attempt_of_accepted hrecord
  have hsequence := h.numbered.sequence before.length (by simp)
  rw [List.getElem_append_right (Nat.le_refl _)] at hsequence
  simp only [Nat.sub_self, List.getElem_cons_zero] at hsequence
  have hsplit := LedgersAgree.length_eq before
  exact ⟨before, after, rfl, hlength, by omega⟩

/-! ## Calls and runs -/

/-- A publication leaves the device alone. -/
theorem publishRecord_device (b : Bridge) (env : PublishEnv) (record : Record) :
    (publishRecord b env record).bridge.config = b.config ∧
      (publishRecord b env record).bridge.inputFd = b.inputFd := by
  obtain ⟨sent, dropped, written, urgentFd, stop, hsent⟩ := announce_announced
    (publishAttempt b env.beginNs env.endNs record).2
    (publishAttempt b env.beginNs env.endNs record).1 env.send env.dropUrgent env.urgent
  obtain ⟨stats, trace, htried⟩ := publishAttempt_frame b env.beginNs env.endNs record
  simp only [publishRecord, hsent, announced]
  rw [htried]
  exact ⟨rfl, rfl⟩

theorem discardPendingInput_toBridge (b : InputBridge) (reads : List DeviceRead)
    (keys : Option KeyBitmap) : (discardPendingInput b reads keys).2.toBridge = b.toBridge := by
  unfold discardPendingInput refreshButtonState
  repeat' split
  all_goals rfl

/-- The ledgers agree, and the device is as it was. -/
private def Kept (b₀ b : Bridge) (attempts : List Attempt) : Prop :=
  LedgersAgree b attempts ∧ b.config = b₀.config ∧ b.inputFd = b₀.inputFd

private theorem kept_publish {b₀ : Bridge} (b : Bridge) (attempts : List Attempt)
    (env : PublishEnv) (record : Record) (h : Kept b₀ b attempts)
    (hlt : attempts.length < 2 ^ 64 - 2) :
    Kept b₀ (publishRecord b env record).bridge
      (attempts ++ [(publishRecord b env record).attempt]) := by
  obtain ⟨hconfig, hinput⟩ := publishRecord_device b env record
  exact ⟨h.1.publish env record (by omega), hconfig.trans h.2.1, hinput.trans h.2.2⟩

/-- The device branches of the loop. -/
theorem ledgers_device {b : InputBridge} {attempts : List Attempt}
    (h : LedgersAgree b.toBridge attempts) (hdevice : b.config.devicePath = true)
    (hopen : 0 ≤ b.inputFd) (reads : List DeviceRead) (env : DeviceStateEnv)
    (hlt : (attempts ++ attemptsOf (serveDevice b reads env).1).length + 1 < 2 ^ 64) :
    LedgersAgree (serveDevice b reads env).2.toBridge
        (attempts ++ attemptsOf (serveDevice b reads env).1) ∧
      (serveDevice b reads env).2.config = b.config := by
  have hbound : (attempts ++ attemptsOf (drainInputDevice b reads).2.1).length + 1 <
    2 ^ 64 := hlt
  have hkept : Kept b.toBridge (drainInputDevice b reads).2.2.toBridge
      (attempts ++ attemptsOf (drainInputDevice b reads).2.1) :=
    drainInputDevice_keeps (P := Kept b.toBridge) kept_publish ⟨h, rfl, rfl⟩ reads
      (Nat.le_sub_of_add_le hbound)
  obtain ⟨hdrained, hconfig, hinput⟩ := hkept
  simp only [serveDevice]
  split
  · have hgone := hdrained.markGone (hconfig ▸ hdevice) (hinput ▸ hopen) env.send env.urgent
    refine ⟨hgone, ?_⟩
    rw [← hconfig]
    unfold InputBridge.markGone markDeviceGone sendDeviceState
    split
    · rfl
    · cases env.urgent <;> rfl
  · exact ⟨hdrained, hconfig⟩

/-- The POLLHUP branch, behind the POLLIN branch or alone. -/
theorem ledgers_hangup {b : InputBridge} {attempts : List Attempt}
    (h : LedgersAgree b.toBridge attempts) (env : DeviceStateEnv) :
    LedgersAgree (hangupDevice b env).toBridge attempts := by
  unfold hangupDevice
  split
  · rename_i hdevice
    rw [Bool.and_eq_true, decide_eq_true_eq] at hdevice
    exact h.markGone hdevice.1 hdevice.2 env.send env.urgent
  · exact h

/-- Every call of the main loop keeps the ledgers. -/
theorem LedgersAgree.call {b : InputBridge} {attempts : List Attempt}
    (h : LedgersAgree b.toBridge attempts) (call : MainCall) (hready : b.ready call = true)
    (hlt : (attempts ++ attemptsOf (b.call call).1).length + 1 < 2 ^ 64) :
    LedgersAgree (b.call call).2.toBridge (attempts ++ attemptsOf (b.call call).1) := by
  have hquiet : attempts ++ attemptsOf [] = attempts := by simp [attemptsOf]
  cases call with
  | barrier modeReceived received armed send =>
    simp only [InputBridge.call, hquiet]
    exact h.barrier modeReceived received armed send
  | discard reads keys =>
    simp only [InputBridge.call, hquiet, discardPendingInput_toBridge]
    exact h
  | device reads hangup gone hungUp =>
    simp only [InputBridge.ready, Bool.and_eq_true, decide_eq_true_eq] at hready
    cases reads with
    | none =>
      rw [← hquiet] at h
      cases hangup with
      | false => exact h
      | true => exact ledgers_hangup h hungUp
    | some reads =>
      have hserved := (ledgers_device h hready.1 hready.2 reads gone hlt).1
      cases hangup with
      | false => exact hserved
      | true => exact ledgers_hangup hserved hungUp
  | synthetic expirations clock env =>
    exact emitRounds_keeps (P := LedgersAgree)
      (fun b attempts env record h hlt => h.publish env record (Nat.add_lt_of_lt_sub hlt))
      h clock env _ (Nat.le_sub_of_add_le hlt)
  | control received nowNs urgent =>
    simp only [InputBridge.call, hquiet]
    exact h.control received nowNs urgent
  | reconnect fd env =>
    simp only [InputBridge.ready, Bool.and_eq_true, decide_eq_true_eq] at hready
    simp only [InputBridge.call, hquiet]
    exact h.reconnect hready.1 hready.2 fd env.send env.urgent
  | terminal nowNs env urgent =>
    have hpublish := h.publish env (terminalRecord b nowNs) (by
      simpa [InputBridge.call, attemptsOf] using hlt)
    exact hpublish.writeUrgent urgent

/-- The ledgers of a bridge that has just started. -/
theorem ledgersAgree_boot {size features nowNs : UInt64} {capacity : UInt32}
    {device : DeviceIdentity} {ring : RingHeader} {config : BridgeConfig}
    {clientFd inputFd : Int32}
    (hinit : initializeMapping size capacity features device 1 nowNs = .ok ring)
    (hopen : config.devicePath = true → 0 ≤ inputFd) :
    LedgersAgree (.boot config ring clientFd inputFd) [] := by
  have hnumbered := numbered_initializeMapping hinit
  have hgone : (config.devicePath && decide (inputFd < 0)) = false := by
    cases hdevice : config.devicePath with
    | true => simpa using hopen hdevice
    | false => rfl
  unfold initializeMapping at hinit
  split at hinit
  · cases hinit
  · obtain rfl := Except.ok.inj hinit
    constructor
    case numbered => exact hnumbered
    case gone =>
      show (0 : UInt64) - 0 = if (config.devicePath && decide (inputFd < 0)) then 1 else 0
      rw [hgone]
      rfl
    all_goals rfl

/-- From initialisation, in every state that the main loop reaches with
fewer than 2^64 - 1 attempts, all ledgers agree, the next number counts the head
and the drops, and the accepted record at a position has the number of the
position and the drops before it. -/
theorem ledgers_agree {size features nowNs : UInt64} {capacity : UInt32}
    {device : DeviceIdentity} {ring : RingHeader} {config : BridgeConfig}
    {clientFd inputFd : Int32} {source : SyntheticSource}
    (hinit : initializeMapping size capacity features device 1 nowNs = .ok ring)
    (hopen : config.devicePath = true → 0 ≤ inputFd)
    {calls : List MainCall} {s : Running}
    (hrun : mainMachine.run ⟨.boot (.boot config ring clientFd inputFd) source, []⟩ calls =
      some s)
    (hlt : s.attempts.length + 1 < 2 ^ 64) :
    LedgersAgree s.bridge.toBridge s.attempts ∧
    s.bridge.ring.producer.nextSequence.toNat =
      1 + s.bridge.stats.recordsAttempted.toNat ∧
    s.bridge.stats.recordsAttempted.toNat =
      s.bridge.ring.producer.head.toNat + s.bridge.ring.producer.droppedNewest.toNat ∧
    ∀ p record, (acceptedRecords s.attempts)[p]? = some record →
      ∃ before after, s.attempts = before ++ ⟨record, true⟩ :: after ∧
        (acceptedRecords before).length = p ∧
        record.sequence.toNat = p + 1 + before.countP fun a => !a.published := by
  have hmono : ∀ s call t, mainMachine.step s call = some t →
      s.attempts.length + 1 ≤ t.attempts.length + 1 := by
    intro s call t hstep
    obtain ⟨-, rfl⟩ := mainMachine_step.1 hstep
    simp
  have hkeep : ∀ s call t, LedgersAgree s.bridge.toBridge s.attempts →
      t.attempts.length + 1 < 2 ^ 64 → mainMachine.step s call = some t →
      LedgersAgree t.bridge.toBridge t.attempts := by
    intro s call t h ht hstep
    obtain ⟨hready, rfl⟩ := mainMachine_step.1 hstep
    exact h.call call hready ht
  have h : LedgersAgree s.bridge.toBridge s.attempts :=
    Machine.run_invariant_below (fun s : Running => LedgersAgree s.bridge.toBridge s.attempts)
      (fun s => s.attempts.length + 1) hmono hkeep (ledgersAgree_boot hinit hopen) hrun hlt
  exact ⟨h, h.sequence_eq.1, h.sequence_eq.2, fun p record => h.position⟩

/-- A frame is published, the device is lost in the middle of the next one,
and it is opened again; the client acknowledges the record. -/
def lossyCalls : List MainCall :=
  [.device (some [.events [quietReading (untimed EV_REL REL_X 5),
      quietReading (untimed EV_SYN SYN_REPORT 0),
      quietReading (untimed EV_KEY BTN_LEFT 1)], .eof]) true ⟨.done, .done⟩ ⟨.done, .done⟩,
    .reconnect 7 ⟨.done, .done⟩,
    .control (.ok (AckMessage.bytes ⟨2, 1⟩)) 0 .done,
    .terminal 0 quietEnv .done]

theorem ledgers_agree_lossy :
    ∃ s, mainMachine.run ⟨freshInput 64, []⟩ lossyCalls = some s ∧
      LedgersAgree s.bridge.toBridge s.attempts ∧
      s.bridge.stats.deviceReconnects = 1 ∧ s.attempts.length = 2 := by
  have hinit : initializeMapping (mappingSize 64) 64 0 ⟨[], 0, 0, 0, 0⟩ 1 0 =
      .ok (freshBridge 64).ring := rfl
  have hrun : mainMachine.run ⟨freshInput 64, []⟩ lossyCalls = some _ := rfl
  refine ⟨_, hrun, (ledgers_agree hinit ?_ hrun ?_).1, ?_, ?_⟩ <;> decide

end Hfior
