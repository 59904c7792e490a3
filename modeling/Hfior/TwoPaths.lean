import Hfior.Bridge.Publish
import Hfior.Bridge.Control
import Hfior.Library.Calls
import Hfior.Policy

/-!
# The writable and the read-only path

A consumer with a writable mapping drains the ring itself.  A consumer with
a read-only mapping copies through a cursor, and the bridge moves the tail
when it has the ACK.  `read_agrees` compares one read of each kind, and
`two_paths_agree` whole schedules of publications and reads.

The two bridges differ in a heartbeat and in counters that no publication
reads.  `Bridge.withAside` changes just these, and
`publishRecord_withAside` says that a publication does not notice.
-/

namespace Hfior

/-! ## The two reads -/

/-- A read through the cursor whose ACK is sent and delivered at once. -/
def readThroughCursor (b : Bridge) (c : Cursor) (maxRecords nowNs : UInt64)
    (urgent : IoResult) : Except Errno (List Record × Bridge × Cursor) := do
  let (records, c) ← cursorDrain (some c) b.ring true maxRecords
  let (c, message) ← cursorAck (some c) .done
  match message with
  | none => .ok (records, b, c)
  | some ack =>
    .ok (records, (handleControlMessage b (.ok ack.bytes) nowNs urgent).bridge, c)

/-- A read by a consumer that has the ring mapped writable. -/
def readWritable (b : Bridge) (maxRecords nowNs : UInt64) : List Record × Bridge :=
  ((ringDrain b.ring maxRecords nowNs).1,
    { b with ring := (ringDrain b.ring maxRecords nowNs).2 })

/-- The positions of the ring are in order, and not more than the capacity
apart. -/
structure InWindow (r : RingHeader) : Prop where
  tail_le : r.consumer.tail ≤ r.producer.head
  head_le : r.producer.head.toNat ≤
    r.consumer.tail.toNat + r.metadata.capacity.toNat

/-- The cursor has read and acknowledged everything below the tail. -/
structure AtTail (b : Bridge) (c : Cursor) : Prop where
  socket : 0 ≤ c.controlSocketFd
  localTail : c.localTail = b.ring.consumer.tail
  acknowledgedTail : c.acknowledgedTail = b.ring.consumer.tail
  generation : c.generation = b.generation

/-- The bridge with other statistics and another consumer heartbeat. -/
def Bridge.withAside (b : Bridge) (stats : BridgeStats) (heartbeatNs : UInt64) : Bridge :=
  { b with stats := stats, ring.consumer.heartbeatNs := heartbeatNs }

/-- The two bridges agree on everything else. -/
def SameAside (b b' : Bridge) : Prop := ∃ stats heartbeatNs, b' = b.withAside stats heartbeatNs

/-! ## One read -/

section
variable {b : Bridge} {c : Cursor} (maxRecords nowNs nowNs' : UInt64) (urgent : IoResult)

/-- The number of records that both reads copy. -/
def readable (r : RingHeader) (maxRecords : UInt64) : UInt64 :=
  if r.producer.head - r.consumer.tail > maxRecords then maxRecords
  else r.producer.head - r.consumer.tail

theorem readable_le (r : RingHeader) :
    readable r maxRecords ≤ r.producer.head - r.consumer.tail := by
  unfold readable
  split
  · rename_i h
    exact UInt64.le_of_lt h
  · exact UInt64.le_refl _

/-- A cursor at the tail copies what a drain copies. -/
theorem cursorDrain_atTail (h : InWindow b.ring) (hc : AtTail b c) :
    cursorDrain (some c) b.ring true maxRecords =
      .ok (copySlots b.ring b.ring.consumer.tail (readable b.ring maxRecords),
        { c with localTail := b.ring.consumer.tail + readable b.ring maxRecords }) := by
  have hbounds : ¬ (b.ring.consumer.tail > b.ring.producer.head ∨
      b.ring.producer.head - b.ring.consumer.tail > b.ring.metadata.capacity.toUInt64) := by
    rintro (hgt | hgt)
    · exact absurd h.tail_le (UInt64.not_le.2 hgt)
    · have hle := h.head_le
      rw [gt_iff_lt, UInt64.lt_iff_toNat_lt, UInt64.toNat_sub_of_le _ _ h.tail_le,
        UInt32.toNat_toUInt64] at hgt
      omega
  have havailable : snapshotAvailable b.ring.metadata.capacity b.ring.producer.head
      b.ring.consumer.tail maxRecords = .ok (readable b.ring maxRecords) := by
    unfold snapshotAvailable readable
    rw [if_neg (by simpa using hbounds)]
    split <;> rfl
  simp only [cursorDrain, ringReadSnapshot, hc.localTail, havailable]
  rfl

theorem readWritable_eq : readWritable b maxRecords nowNs =
    (copySlots b.ring b.ring.consumer.tail (readable b.ring maxRecords),
      { b with ring := if readable b.ring maxRecords != 0 then
          storeTail b.ring (readable b.ring maxRecords) nowNs else b.ring }) := rfl

/-- The position behind the read is the sum of the numbers. -/
theorem tail_add_readable (h : InWindow b.ring) :
    (b.ring.consumer.tail + readable b.ring maxRecords).toNat =
      b.ring.consumer.tail.toNat + (readable b.ring maxRecords).toNat ∧
    b.ring.consumer.tail.toNat + (readable b.ring maxRecords).toNat ≤
      b.ring.producer.head.toNat := by
  have hle := readable_le maxRecords b.ring
  have htail := h.tail_le
  have hlt := b.ring.producer.head.toNat_lt
  rw [UInt64.le_iff_toNat_le] at htail
  rw [UInt64.le_iff_toNat_le, UInt64.toNat_sub_of_le _ _ h.tail_le] at hle
  rw [UInt64.toNat_add, Nat.mod_eq_of_lt (by omega)]
  omega

/-- The bridge accepts the ACK of the read. -/
theorem ackValid_readable (h : InWindow b.ring) :
    ackValid b ⟨b.generation, b.ring.consumer.tail + readable b.ring maxRecords⟩ = true := by
  obtain ⟨hsum, hhead⟩ := tail_add_readable maxRecords h
  have hcapacity := h.head_le
  have hle : b.ring.consumer.tail + readable b.ring maxRecords ≤ b.ring.producer.head := by
    rw [UInt64.le_iff_toNat_le, hsum]
    exact hhead
  have hgap := UInt64.toNat_sub_of_le _ _ hle
  simp only [ackValid, gt_iff_lt, bne_self_eq_false, Bool.false_or, Bool.not_eq_true',
    Bool.or_eq_false_iff, decide_eq_false_iff_not, UInt64.lt_iff_toNat_lt,
    UInt32.toNat_toUInt64, hgap, hsum]
  omega

/-- Without records no ACK is sent, and nothing moves. -/
theorem readThroughCursor_empty (h : InWindow b.ring) (hc : AtTail b c)
    (hzero : readable b.ring maxRecords = 0) :
    readThroughCursor b c maxRecords nowNs urgent =
      .ok (copySlots b.ring b.ring.consumer.tail (readable b.ring maxRecords), b,
        { c with localTail := b.ring.consumer.tail }) := by
  have hsocket : ¬ c.controlSocketFd < 0 := by simpa using hc.socket
  unfold readThroughCursor
  rw [cursorDrain_atTail maxRecords h hc]
  simp only [hzero, UInt64.add_zero, cursorAck, bind, Except.bind]
  rw [if_neg hsocket, if_pos (by simp [hc.acknowledgedTail])]

/-- With records the ACK is sent, and the bridge accepts it. -/
theorem readThroughCursor_some (h : InWindow b.ring) (hc : AtTail b c)
    (hsome : readable b.ring maxRecords ≠ 0) :
    readThroughCursor b c maxRecords nowNs urgent =
      .ok (copySlots b.ring b.ring.consumer.tail (readable b.ring maxRecords),
        acceptAck (countControlMessage b) ⟨b.generation,
          b.ring.consumer.tail + readable b.ring maxRecords⟩ nowNs,
        { c with
          localTail := b.ring.consumer.tail + readable b.ring maxRecords
          acknowledgedTail := b.ring.consumer.tail + readable b.ring maxRecords }) := by
  have hsocket : ¬ c.controlSocketFd < 0 := by simpa using hc.socket
  have hmoved : ¬ (b.ring.consumer.tail + readable b.ring maxRecords ==
      c.acknowledgedTail) = true := by
    rw [hc.acknowledgedTail, beq_iff_eq, UInt64.add_eq_left]
    exact hsome
  have haccept : handleAck (countControlMessage b) ⟨b.generation,
        b.ring.consumer.tail + readable b.ring maxRecords⟩ nowNs urgent =
      acceptAck (countControlMessage b) ⟨b.generation,
        b.ring.consumer.tail + readable b.ring maxRecords⟩ nowNs :=
    if_pos (ackValid_readable maxRecords h)
  unfold readThroughCursor
  rw [cursorDrain_atTail maxRecords h hc]
  simp only [cursorAck, bind, Except.bind]
  rw [if_neg hsocket, if_neg hmoved]
  simp only [handleControlMessage_ackBytes, hc.generation, haccept]

/-- One read of each kind returns the same records and leaves the same
bridge. -/
theorem read_agrees (h : InWindow b.ring) (hc : AtTail b c) :
    ∃ b' c', readThroughCursor b c maxRecords nowNs' urgent =
        .ok ((readWritable b maxRecords nowNs).1, b', c') ∧
      SameAside (readWritable b maxRecords nowNs).2 b' ∧ InWindow b'.ring ∧ AtTail b' c' := by
  rw [readWritable_eq]
  by_cases hzero : readable b.ring maxRecords = 0
  · refine ⟨_, _, readThroughCursor_empty maxRecords nowNs' urgent h hc hzero, ?_, h, ?_⟩
    · simp only [hzero, bne_self_eq_false]
      exact ⟨b.stats, b.ring.consumer.heartbeatNs, rfl⟩
    · exact ⟨hc.socket, rfl, hc.acknowledgedTail, hc.generation⟩
  · obtain ⟨hsum, hhead⟩ := tail_add_readable maxRecords h
    refine ⟨_, _, readThroughCursor_some maxRecords nowNs' urgent h hc hzero, ?_, ⟨?_, ?_⟩, ?_⟩
    · have hconsumed : b.ring.consumer.tail + readable b.ring maxRecords -
          b.ring.consumer.tail = readable b.ring maxRecords := by
        rw [UInt64.add_comm, UInt64.add_sub_cancel]
      simp only [if_pos (bne_iff_ne.2 hzero), acceptAck, countControlMessage, hconsumed]
      exact ⟨_, nowNs', rfl⟩
    · rw [UInt64.le_iff_toNat_le]
      exact hsum ▸ hhead
    · have hle := h.head_le
      show b.ring.producer.head.toNat ≤
        (b.ring.consumer.tail + readable b.ring maxRecords).toNat + _
      rw [hsum]
      exact hle.trans (by simp only [acceptAck, countControlMessage]; omega)
    · exact ⟨hc.socket, rfl, rfl, hc.generation⟩

end

/-! ## A publication -/

section
variable (b : Bridge) (stats : BridgeStats) (heartbeatNs : UInt64)

theorem writeUrgent_withAside (urgent : IoResult) : ∃ stats',
    writeUrgent (b.withAside stats heartbeatNs) urgent =
      (writeUrgent b urgent).withAside stats' heartbeatNs := by
  cases urgent <;> exact ⟨_, rfl⟩

theorem sendEagerRecord_withAside (record : Record) (send urgent : IoResult) : ∃ stats',
    sendEagerRecord (b.withAside stats heartbeatNs) record send urgent =
      ((sendEagerRecord b record send urgent).1.withAside stats' heartbeatNs,
        (sendEagerRecord b record send urgent).2) := by
  simp only [sendEagerRecord]
  by_cases hoff : (decide (b.clientFd < 0) || b.mode == HFIOR_MODE_HFIOR) = true
  · have hoff' : (decide ((b.withAside stats heartbeatNs).clientFd < 0) ||
        (b.withAside stats heartbeatNs).mode == HFIOR_MODE_HFIOR) = true := hoff
    rw [if_pos hoff, if_pos hoff']
    exact ⟨stats, rfl⟩
  · have hoff' : ¬ (decide ((b.withAside stats heartbeatNs).clientFd < 0) ||
        (b.withAside stats heartbeatNs).mode == HFIOR_MODE_HFIOR) = true := hoff
    rw [if_neg hoff, if_neg hoff']
    cases send with
    | done => exact ⟨_, rfl⟩
    | failed errno => cases errno <;> cases urgent <;> exact ⟨_, rfl⟩

theorem announce_withAside (a : Attempt) (send dropUrgent urgent : IoResult) : ∃ stats',
    announce (b.withAside stats heartbeatNs) a send dropUrgent urgent =
      ((announce b a send dropUrgent urgent).1.withAside stats' heartbeatNs,
        (announce b a send dropUrgent urgent).2) := by
  have hurgent : ∀ (b : Bridge) stats, ∃ stats',
      announceUrgent (b.withAside stats heartbeatNs) a urgent =
        (announceUrgent b a urgent).withAside stats' heartbeatNs := by
    intro b stats
    unfold announceUrgent
    split
    · exact ⟨stats, rfl⟩
    · exact writeUrgent_withAside b stats heartbeatNs urgent
  simp only [announce]
  split
  · obtain ⟨stats', hsend⟩ :=
      sendEagerRecord_withAside b stats heartbeatNs a.record send dropUrgent
    rw [hsend]
    obtain ⟨stats'', hwrite⟩ := hurgent (sendEagerRecord b a.record send dropUrgent).1 stats'
    exact ⟨stats'', by rw [hwrite]⟩
  · obtain ⟨stats', hwrite⟩ := hurgent b stats
    exact ⟨stats', by rw [hwrite]⟩

/-- `hfior_ring_publish` does not read the heartbeat of the consumer. -/
theorem ringPublish_heartbeat (r : RingHeader) (record : Record) :
    ringPublish { r with consumer.heartbeatNs := heartbeatNs } record =
      ((ringPublish r record).1,
        { (ringPublish r record).2 with consumer.heartbeatNs := heartbeatNs }) := by
  unfold ringPublish
  dsimp only
  split <;> rfl

theorem tracePublication_withAside (entry : PublicationTraceEntry) :
    tracePublication (b.withAside stats heartbeatNs) entry =
      (tracePublication b entry).withAside stats heartbeatNs := by
  unfold tracePublication
  by_cases htrace : b.config.tracePath = true
  · rw [if_pos htrace]
    exact if_pos htrace
  · rw [if_neg htrace]
    exact if_neg htrace

theorem accountRecordFlags_withAside (record : Record) : ∃ stats',
    accountRecordFlags (b.withAside stats heartbeatNs) record =
      (accountRecordFlags b record).withAside stats' heartbeatNs := by
  unfold accountRecordFlags
  split <;> exact ⟨_, rfl⟩

/-- The trace and the counters of an attempt. -/
private theorem settle_withAside (accepted : Bool) (record : Record)
    (entry : PublicationTraceEntry) : ∃ stats',
    (if accepted then accountRecordFlags (countPublished
        (tracePublication (b.withAside stats heartbeatNs) entry)) record
      else countRingDrop (tracePublication (b.withAside stats heartbeatNs) entry)) =
    (if accepted then accountRecordFlags (countPublished (tracePublication b entry)) record
      else countRingDrop (tracePublication b entry)).withAside stats' heartbeatNs := by
  rw [tracePublication_withAside]
  generalize tracePublication b entry = b'
  cases accepted with
  | true => exact accountRecordFlags_withAside (countPublished b') _ heartbeatNs record
  | false => exact ⟨_, rfl⟩

theorem publishAttempt_withAside (beginNs endNs : UInt64) (record : Record) : ∃ stats',
    publishAttempt (b.withAside stats heartbeatNs) beginNs endNs record =
      ((publishAttempt b beginNs endNs record).1,
        (publishAttempt b beginNs endNs record).2.withAside stats' heartbeatNs) := by
  have hring := ringPublish_heartbeat heartbeatNs (allocateSequence b.ring beginNs)
    { record with sequence := b.ring.producer.nextSequence }
  have hallocate : allocateSequence (b.withAside stats heartbeatNs).ring beginNs =
      { allocateSequence b.ring beginNs with consumer.heartbeatNs := heartbeatNs } := rfl
  have hnext : (b.withAside stats heartbeatNs).ring.producer.nextSequence =
      b.ring.producer.nextSequence := rfl
  simp only [publishAttempt, hallocate, hnext, hring]
  generalize ringPublish (allocateSequence b.ring beginNs)
    { record with sequence := b.ring.producer.nextSequence } = result
  obtain ⟨stats', hsettle⟩ := settle_withAside
    { b with
      stats.recordsAttempted := b.stats.recordsAttempted + 1
      ring := result.2 }
    { stats with recordsAttempted := stats.recordsAttempted + 1 } heartbeatNs result.1
    { record with sequence := b.ring.producer.nextSequence } {
      sequence := b.ring.producer.nextSequence
      sourceTimestampNs := record.timestampNs
      publishBeginNs := beginNs
      publishEndNs := endNs
      headAfter := result.2.producer.head
      published := if result.1 then 1 else 0 }
  exact ⟨stats', congrArg (Prod.mk _) hsettle⟩

/-- A publication does not notice what lies aside. -/
theorem publishRecord_withAside (env : PublishEnv) (record : Record) : ∃ stats',
    publishRecord (b.withAside stats heartbeatNs) env record =
      { publishRecord b env record with
        bridge := (publishRecord b env record).bridge.withAside stats' heartbeatNs } := by
  obtain ⟨stats', htried⟩ :=
    publishAttempt_withAside b stats heartbeatNs env.beginNs env.endNs record
  obtain ⟨stats'', hsent⟩ := announce_withAside
    (publishAttempt b env.beginNs env.endNs record).2 stats' heartbeatNs
    (publishAttempt b env.beginNs env.endNs record).1 env.send env.dropUrgent env.urgent
  refine ⟨stats'', ?_⟩
  simp only [publishRecord, htried, hsent]

end

/-! ## The window of a publication -/

section
variable {b : Bridge} {env : PublishEnv} {record : Record}

/-- The head moves by one for an accepted record. -/
theorem ringPublish_head (r : RingHeader) (record : Record) :
    (ringPublish r record).2.producer.head =
      if (ringPublish r record).1 then r.producer.head + 1 else r.producer.head := by
  unfold ringPublish
  dsimp only
  split <;> rfl

theorem publishRecord_head (b : Bridge) (env : PublishEnv) (record : Record) :
    (publishRecord b env record).bridge.ring.producer.head =
    if (publishRecord b env record).attempt.published then b.ring.producer.head + 1
    else b.ring.producer.head := by
  have hannounce : (publishRecord b env record).bridge.ring.producer.head =
      (publishAttempt b env.beginNs env.endNs record).2.ring.producer.head :=
    (sameWindow_announce _ _ _ _ _).head
  rw [hannounce, publishAttempt_ring, ringPublish_head]
  rfl

/-- A record is accepted only while the window has room. -/
theorem publishRecord_room (h : InWindow b.ring)
    (hpublished : (publishRecord b env record).attempt.published = true) :
    b.ring.producer.head.toNat <
      b.ring.consumer.tail.toNat + b.ring.metadata.capacity.toNat := by
  have haccepted : (ringPublish (allocateSequence b.ring env.beginNs)
      { record with sequence := b.ring.producer.nextSequence }).1 = true := hpublished
  unfold ringPublish at haccepted
  dsimp only at haccepted
  split at haccepted
  · cases haccepted
  · rename_i hroom
    have hdepth := UInt64.toNat_sub_of_le _ _ h.tail_le
    have hle := UInt64.le_iff_toNat_le.1 h.tail_le
    have hnot : ¬ b.ring.metadata.capacity.toUInt64 ≤
        b.ring.producer.head - b.ring.consumer.tail :=
      fun hfull => hroom (decide_eq_true hfull)
    rw [UInt64.le_iff_toNat_le, hdepth, UInt32.toNat_toUInt64] at hnot
    omega

/-- A publication keeps the window as long as the head does not wrap. -/
theorem inWindow_publishRecord (h : InWindow b.ring)
    (hlt : (publishRecord b env record).attempt.published = true →
      b.ring.producer.head.toNat + 1 < 2 ^ 64) :
    InWindow (publishRecord b env record).bridge.ring ∧
      (publishRecord b env record).bridge.ring.producer.head.toNat =
        b.ring.producer.head.toNat +
          if (publishRecord b env record).attempt.published then 1 else 0 := by
  have htail := publishRecord_consumer_tail b env record
  have hcapacity := congrArg RingMetadata.capacity (publishRecord_metadata b env record)
  have hhead := publishRecord_head b env record
  have hle := UInt64.le_iff_toNat_le.1 h.tail_le
  cases hpublished : (publishRecord b env record).attempt.published with
  | true =>
    have hroom := publishRecord_room h hpublished
    rw [hpublished, if_pos rfl] at hhead
    have hnext : (b.ring.producer.head + 1).toNat = b.ring.producer.head.toNat + 1 := by
      rw [UInt64.toNat_add, UInt64.toNat_one, Nat.mod_eq_of_lt (hlt hpublished)]
    refine ⟨⟨?_, ?_⟩, ?_⟩
    · rw [UInt64.le_iff_toNat_le, htail, hhead, hnext]
      omega
    · rw [htail, hhead, hcapacity, hnext]
      omega
    · rw [hhead, hnext]
      rfl
  | false =>
    rw [hpublished, if_neg Bool.false_ne_true] at hhead
    refine ⟨⟨?_, ?_⟩, ?_⟩
    · rw [htail, hhead]
      exact h.tail_le
    · rw [htail, hhead, hcapacity]
      exact h.head_le
    · rw [hhead]
      simp

end

/-! ## Schedules -/

/-- A step of a schedule.  A read takes its own time on each path, and
`urgent` is the eventfd write of a rejected ACK. -/
inductive PathStep where
  | publish (env : PublishEnv) (record : Record)
  | read (maxRecords nowNs nowNs' : UInt64) (urgent : IoResult)

/-- What a step gives: the attempt with its drop decision, the records of a
read, or an error. -/
inductive PathReply where
  | attempt (a : Attempt)
  | records (records : List Record)
  | failed (errno : Errno)
deriving DecidableEq

/-- A step on the writable path. -/
def writableStep (b : Bridge) : PathStep → PathReply × Bridge
  | .publish env record =>
    (.attempt (publishRecord b env record).attempt, (publishRecord b env record).bridge)
  | .read maxRecords nowNs _ _ =>
    (.records (readWritable b maxRecords nowNs).1, (readWritable b maxRecords nowNs).2)

/-- A step on the read-only path, where every read is acknowledged and
delivered at once. -/
def readOnlyStep (s : Bridge × Cursor) : PathStep → PathReply × (Bridge × Cursor)
  | .publish env record =>
    (.attempt (publishRecord s.1 env record).attempt,
      ((publishRecord s.1 env record).bridge, s.2))
  | .read maxRecords _ nowNs' urgent =>
    match readThroughCursor s.1 s.2 maxRecords nowNs' urgent with
    | .ok (records, b, c) => (.records records, (b, c))
    | .error errno => (.failed errno, s)

/-- A publication that was accepted. -/
def PathReply.accepted : PathReply → Bool
  | .attempt a => a.published
  | _ => false

/-- The paths agree: the bridges differ in what lies aside only, the window
is sane, and the cursor is at the tail. -/
structure PathsAgree (b : Bridge) (s : Bridge × Cursor) : Prop where
  aside : SameAside b s.1
  window : InWindow b.ring
  atTail : AtTail s.1 s.2

section
variable {b : Bridge} {s : Bridge × Cursor}

theorem PathsAgree.publish (h : PathsAgree b s) (env : PublishEnv) (record : Record)
    (hlt : (publishRecord b env record).attempt.published = true →
      b.ring.producer.head.toNat + 1 < 2 ^ 64) :
    (publishRecord s.1 env record).attempt = (publishRecord b env record).attempt ∧
      PathsAgree (publishRecord b env record).bridge
        ((publishRecord s.1 env record).bridge, s.2) := by
  obtain ⟨stats, heartbeatNs, haside⟩ := h.aside
  obtain ⟨stats', hpublish⟩ := publishRecord_withAside b stats heartbeatNs env record
  rw [← haside] at hpublish
  refine ⟨by rw [hpublish], ⟨⟨stats', heartbeatNs, by rw [hpublish]⟩,
    (inWindow_publishRecord h.window hlt).1, ?_⟩⟩
  have htail := publishRecord_consumer_tail s.1 env record
  exact ⟨h.atTail.socket, h.atTail.localTail.trans htail.symm,
    h.atTail.acknowledgedTail.trans htail.symm,
    h.atTail.generation.trans (publishRecord_generation s.1 env record).symm⟩

theorem SameAside.refl (b : Bridge) : SameAside b b :=
  ⟨b.stats, b.ring.consumer.heartbeatNs, rfl⟩

theorem SameAside.trans {b b' b'' : Bridge} (h : SameAside b b') (h' : SameAside b' b'') :
    SameAside b b'' := by
  obtain ⟨stats, heartbeatNs, rfl⟩ := h
  obtain ⟨stats', heartbeatNs', rfl⟩ := h'
  exact ⟨stats', heartbeatNs', rfl⟩

/-- A drain does not read what lies aside. -/
theorem readWritable_withAside (b : Bridge) (stats : BridgeStats)
    (heartbeatNs maxRecords nowNs : UInt64) :
    (readWritable (b.withAside stats heartbeatNs) maxRecords nowNs).1 =
        (readWritable b maxRecords nowNs).1 ∧
      SameAside (readWritable b maxRecords nowNs).2
        (readWritable (b.withAside stats heartbeatNs) maxRecords nowNs).2 := by
  refine ⟨rfl, ?_⟩
  rw [readWritable_eq, readWritable_eq]
  have hreadable : readable (b.withAside stats heartbeatNs).ring maxRecords =
      readable b.ring maxRecords := rfl
  rw [hreadable]
  cases hsome : readable b.ring maxRecords != 0 with
  | true => exact ⟨stats, nowNs, rfl⟩
  | false => exact ⟨stats, heartbeatNs, rfl⟩

theorem PathsAgree.read (h : PathsAgree b s) (maxRecords nowNs nowNs' : UInt64)
    (urgent : IoResult) :
    (readOnlyStep s (.read maxRecords nowNs nowNs' urgent)).1 =
        (writableStep b (.read maxRecords nowNs nowNs' urgent)).1 ∧
      PathsAgree (writableStep b (.read maxRecords nowNs nowNs' urgent)).2
        (readOnlyStep s (.read maxRecords nowNs nowNs' urgent)).2 := by
  obtain ⟨stats, heartbeatNs, haside⟩ := h.aside
  have hwindow : InWindow s.1.ring := by
    rw [haside]
    exact ⟨h.window.tail_le, h.window.head_le⟩
  obtain ⟨b', c', hread, hsame, hwindow', hatTail⟩ :=
    read_agrees maxRecords nowNs nowNs' urgent hwindow h.atTail
  obtain ⟨hrecords, hdrained⟩ := readWritable_withAside b stats heartbeatNs maxRecords nowNs
  rw [← haside] at hrecords hdrained
  have hboth := hdrained.trans hsame
  simp only [readOnlyStep, hread, writableStep, hrecords]
  refine ⟨trivial, hboth, ?_, hatTail⟩
  obtain ⟨stats', heartbeatNs', rfl⟩ := hboth
  exact ⟨hwindow'.tail_le, hwindow'.head_le⟩

/-- On every schedule whose head does not wrap, both paths give the same
records and the same drop decisions. -/
theorem PathsAgree.run (h : PathsAgree b s) (steps : List PathStep)
    (hlt : b.ring.producer.head.toNat +
      (runCalls writableStep b steps).1.countP PathReply.accepted < 2 ^ 64) :
    (runCalls readOnlyStep s steps).1 = (runCalls writableStep b steps).1 ∧
      PathsAgree (runCalls writableStep b steps).2 (runCalls readOnlyStep s steps).2 := by
  induction steps generalizing b s with
  | nil => exact ⟨rfl, h⟩
  | cons step steps ih =>
    simp only [runCalls] at hlt ⊢
    rw [List.countP_cons] at hlt
    cases step with
    | publish env record =>
      have haccepted : (writableStep b (.publish env record)).1.accepted =
          (publishRecord b env record).attempt.published := rfl
      rw [haccepted] at hlt
      have hroom : (publishRecord b env record).attempt.published = true →
          b.ring.producer.head.toNat + 1 < 2 ^ 64 := by
        intro hpublished
        rw [hpublished] at hlt
        simp only [if_true] at hlt
        omega
      obtain ⟨hattempt, hnext⟩ := h.publish env record hroom
      have hhead := (inWindow_publishRecord h.window hroom).2
      have hrest := ih hnext (by
        rw [hhead]
        simp only [writableStep] at hlt
        omega)
      simp only [readOnlyStep, writableStep, hattempt]
      exact ⟨congrArg _ hrest.1, hrest.2⟩
    | read maxRecords nowNs nowNs' urgent =>
      obtain ⟨hrecords, hnext⟩ := h.read maxRecords nowNs nowNs' urgent
      have hhead : (writableStep b (.read maxRecords nowNs nowNs' urgent)).2.ring.producer.head
          = b.ring.producer.head := by
        simp only [writableStep, readWritable_eq]
        split <;> rfl
      have hrest := ih hnext (by
        rw [hhead]
        omega)
      rw [hrecords]
      exact ⟨congrArg _ hrest.1, hrest.2⟩

end

/-- A read through the cursor, with its ACK delivered, is a drain: the same
records, and the same ring but for the heartbeat of the consumer.  So every
schedule of publications and reads gives the same replies on both paths, as
long as the head does not wrap. -/
theorem two_paths_agree {b : Bridge} {c : Cursor} (h : InWindow b.ring) (hc : AtTail b c) :
    (∀ maxRecords nowNs nowNs' urgent, ∃ b' c' heartbeatNs,
      readThroughCursor b c maxRecords nowNs' urgent =
        .ok ((ringDrain b.ring maxRecords nowNs).1, b', c') ∧
      b'.ring = { (ringDrain b.ring maxRecords nowNs).2 with
        consumer.heartbeatNs := heartbeatNs } ∧
      AtTail b' c') ∧
    ∀ steps, b.ring.producer.head.toNat +
        (runCalls writableStep b steps).1.countP PathReply.accepted < 2 ^ 64 →
      (runCalls readOnlyStep (b, c) steps).1 = (runCalls writableStep b steps).1 := by
  constructor
  · intro maxRecords nowNs nowNs' urgent
    obtain ⟨b', c', hread, ⟨stats, heartbeatNs, haside⟩, -, hatTail⟩ :=
      read_agrees maxRecords nowNs nowNs' urgent h hc
    refine ⟨b', c', heartbeatNs, hread, ?_, hatTail⟩
    rw [haside]
    rfl
  · intro steps hlt
    have hagree : PathsAgree b (b, c) := ⟨SameAside.refl b, h, hc⟩
    exact (hagree.run steps hlt).1

/-- Two publications, a read of one record, and two reads that find one
record and none. -/
def twoPathSteps : List PathStep :=
  [.publish quietEnv (blankRecord 0 0), .publish quietEnv (blankRecord 0 0),
    .read 1 0 0 .done, .read 8 0 0 .done, .read 8 0 0 .done]

theorem two_paths_agree_fresh :
    (runCalls readOnlyStep (freshBridge 64, ⟨7, 1, 0, 0⟩) twoPathSteps).1 =
      (runCalls writableStep (freshBridge 64) twoPathSteps).1 := by
  have hwindow : InWindow (freshBridge 64).ring := ⟨by decide, by decide⟩
  have hcursor : AtTail (freshBridge 64) ⟨7, 1, 0, 0⟩ := ⟨by decide, rfl, rfl, rfl⟩
  exact (two_paths_agree hwindow hcursor).2 twoPathSteps (by decide)

end Hfior
