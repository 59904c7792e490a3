import Hfior.Bridge.Basic

/-!
# `publish_record`

A publication is an attempt (allocate the sequence, publish, trace, count),
the eager copy of an accepted record, and the write to the urgent eventfd.
The three parts are separate definitions, since the eventfd is written after
other processes can see the record.

`represents_publishRecord` is the result: a publication appends its record
to the accepted records, or it drops the record.
-/

namespace Hfior

/-! ## `publish_record` -/

/-- What the clocks and the system calls of one `publish_record` return. -/
structure PublishEnv where
  beginNs : UInt64
  endNs : UInt64
  /-- The eager send. -/
  send : IoResult
  /-- The eventfd write behind a refused eager send. -/
  dropUrgent : IoResult
  /-- The eventfd write for an urgent or a dropped record. -/
  urgent : IoResult
deriving DecidableEq, Repr

/-- Clocks at zero and system calls that succeed. -/
def quietEnv : PublishEnv := ⟨0, 0, .done, .done, .done⟩

/-- `account_record_flags`. -/
def accountRecordFlags (b : Bridge) (record : Record) : Bridge :=
  if record.has HFIOR_RECORD_BUTTON then
    { b with stats.buttonTransitions := b.stats.buttonTransitions + 1 }
  else b

/-- One more accepted record. -/
def countPublished (b : Bridge) : Bridge :=
  { b with stats.recordsPublished := b.stats.recordsPublished + 1 }

/-- One more dropped record. -/
def countRingDrop (b : Bridge) : Bridge :=
  { b with stats.ringDrops := b.stats.ringDrops + 1 }

/-- `trace_publication`. -/
def tracePublication (b : Bridge) (entry : PublicationTraceEntry) : Bridge :=
  if b.config.tracePath then
    { b with publicationTrace := b.publicationTrace ++ [entry] }
  else b

/-- The ring after `publish_record` has taken a sequence and stored the
heartbeat. -/
def allocateSequence (r : RingHeader) (beginNs : UInt64) : RingHeader :=
  { r with
    producer.nextSequence := r.producer.nextSequence + 1
    producer.heartbeatNs := beginNs }

/-- A publication attempt: the record with its sequence, and whether the
ring took it. -/
structure Attempt where
  record : Record
  published : Bool
deriving DecidableEq, Repr

/-- `publish_record` up to the announcement of the record: allocate the
sequence, publish, trace and count. -/
def publishAttempt (b : Bridge) (beginNs endNs : UInt64) (record : Record) :
    Attempt × Bridge :=
  let record := { record with sequence := b.ring.producer.nextSequence }
  let result := ringPublish (allocateSequence b.ring beginNs) record
  let b := { b with
    stats.recordsAttempted := b.stats.recordsAttempted + 1
    ring := result.2 }
  let b := tracePublication b {
    sequence := record.sequence
    sourceTimestampNs := record.timestampNs
    publishBeginNs := beginNs
    publishEndNs := endNs
    headAfter := result.2.producer.head
    published := if result.1 then 1 else 0 }
  (⟨record, result.1⟩,
    if result.1 then accountRecordFlags (countPublished b) record
    else countRingDrop b)

/-- The flags of a record that wakes the client at once. -/
def urgentFlags : UInt16 :=
  HFIOR_RECORD_BUTTON ||| HFIOR_RECORD_SYN_DROPPED |||
    HFIOR_RECORD_DEVICE_GONE ||| HFIOR_RECORD_OVERFLOW

/-- The eventfd write at the end of `publish_record`: for an urgent record
and for every dropped one. -/
def announceUrgent (b : Bridge) (a : Attempt) (urgent : IoResult) : Bridge :=
  if a.published && !a.record.has urgentFlags then b else writeUrgent b urgent

/-- `publish_record` behind the attempt: the eager copy of an accepted
record, and the urgent write. -/
def announce (b : Bridge) (a : Attempt) (send dropUrgent urgent : IoResult) :
    Bridge × Option EagerRecordMessage :=
  let eager := if a.published then sendEagerRecord b a.record send dropUrgent
    else (b, none)
  (announceUrgent eager.1 a urgent, eager.2)

/-- What a `publish_record` tried, leaves and sends. -/
structure Publication where
  attempt : Attempt
  bridge : Bridge
  eager : Option EagerRecordMessage

/-- `publish_record`. -/
def publishRecord (b : Bridge) (env : PublishEnv) (record : Record) :
    Publication :=
  let tried := publishAttempt b env.beginNs env.endNs record
  let sent := announce tried.2 tried.1 env.send env.dropUrgent env.urgent
  { attempt := tried.1, bridge := sent.1, eager := sent.2 }

/-! ## Attempts and accepted records -/

/-- The records that the ring took, in order. -/
def acceptedRecords (attempts : List Attempt) : List Record :=
  (attempts.filter Attempt.published).map Attempt.record

/-- The attempts so far are numbered from 1, and the ring counts the next
number and the dropped attempts. -/
structure Numbered (r : RingHeader) (attempts : List Attempt) : Prop where
  next : r.producer.nextSequence.toNat = attempts.length + 1
  dropped : r.producer.droppedNewest.toNat = attempts.countP fun a => !a.published
  sequence : ∀ i, (h : i < attempts.length) →
    attempts[i].record.sequence.toNat = i + 1

section
variable {attempts : List Attempt} {a : Attempt}

theorem acceptedRecords_append_of_published (h : a.published = true) :
    acceptedRecords (attempts ++ [a]) = acceptedRecords attempts ++ [a.record] := by
  simp [acceptedRecords, h]

theorem acceptedRecords_append_of_dropped (h : a.published = false) :
    acceptedRecords (attempts ++ [a]) = acceptedRecords attempts := by
  simp [acceptedRecords, h]

theorem acceptedRecords_prefix_append :
    acceptedRecords attempts <+: acceptedRecords (attempts ++ [a]) := by
  cases h : a.published with
  | true =>
    rw [acceptedRecords_append_of_published h]
    exact List.prefix_append _ _
  | false =>
    rw [acceptedRecords_append_of_dropped h]

theorem acceptedRecords_length_le : (acceptedRecords attempts).length ≤
    attempts.length := by
  rw [acceptedRecords, List.length_map]
  exact List.length_filter_le _ _

theorem numbered_freshHeader (capacity : UInt32) (features : UInt64)
    (device : DeviceIdentity) (generation nowNs : UInt64) :
    Numbered (freshHeader capacity features device generation nowNs) [] :=
  ⟨rfl, rfl, fun i h => absurd h (Nat.not_lt_zero i)⟩

theorem numbered_initializeMapping {size : UInt64} {capacity : UInt32}
    {features : UInt64} {device : DeviceIdentity} {generation nowNs : UInt64}
    {r : RingHeader}
    (h : initializeMapping size capacity features device generation nowNs
      = .ok r) : Numbered r [] := by
  rw [initializeMapping] at h
  split at h
  · cases h
  · cases h
    exact numbered_freshHeader _ _ _ _ _

theorem Numbered.sameLedger {r r' : RingHeader} (h : Numbered r attempts)
    (hr : SameLedger r r') : Numbered r' attempts :=
  ⟨hr.nextSequence ▸ h.next, hr.droppedNewest ▸ h.dropped, h.sequence⟩

/-- The next attempt takes the next number, and it is counted if it is
dropped. -/
theorem Numbered.append {r r' : RingHeader} (h : Numbered r attempts)
    (ha : a.record.sequence = r.producer.nextSequence)
    (hnext : r'.producer.nextSequence = r.producer.nextSequence + 1)
    (hdropped : r'.producer.droppedNewest =
      if a.published then r.producer.droppedNewest
      else r.producer.droppedNewest + 1)
    (hlt : attempts.length + 2 < 2 ^ 64) : Numbered r' (attempts ++ [a]) := by
  have hcount : attempts.countP (fun a => !a.published) ≤ attempts.length :=
    List.countP_le_length
  refine ⟨?_, ?_, ?_⟩
  · rw [hnext, UInt64.toNat_add, UInt64.toNat_one, h.next, List.length_append,
      List.length_singleton, Nat.mod_eq_of_lt hlt]
  · rw [hdropped, List.countP_append, ← h.dropped]
    cases hpublished : a.published with
    | true => simp [hpublished]
    | false =>
      have := h.dropped
      rw [if_neg Bool.false_ne_true, UInt64.toNat_add, UInt64.toNat_one,
        Nat.mod_eq_of_lt (by omega)]
      simp [hpublished]
  · intro i hi
    rw [List.length_append, List.length_singleton] at hi
    rcases Nat.lt_succ_iff_lt_or_eq.1 hi with hlt' | rfl
    · rw [List.getElem_append_left hlt']
      exact h.sequence i hlt'
    · rw [List.getElem_append_right (Nat.le_refl _)]
      simp [ha, h.next]

end

section
variable {r : RingHeader} {attempts : List Attempt}

/-- Attempts are numbered in increasing order. -/
theorem Numbered.increasing (h : Numbered r attempts) :
    attempts.Pairwise fun a a' =>
      a.record.sequence.toNat < a'.record.sequence.toNat := by
  rw [List.pairwise_iff_getElem]
  intro i j hi hj hij
  rw [h.sequence i hi, h.sequence j hj]
  omega

/-- So the accepted records are, too. -/
theorem Numbered.accepted_increasing (h : Numbered r attempts) :
    (acceptedRecords attempts).Pairwise fun x y =>
      x.sequence.toNat < y.sequence.toNat := by
  rw [acceptedRecords, List.pairwise_map]
  exact h.increasing.filter _

/-- Every accepted record has a sequence. -/
theorem Numbered.accepted_pos (h : Numbered r attempts) :
    ∀ record ∈ acceptedRecords attempts, record.sequence ≠ 0 := by
  intro record hmem
  obtain ⟨a, ha, rfl⟩ := List.mem_map.1 hmem
  obtain ⟨i, hi, rfl⟩ := List.mem_iff_getElem.1 (List.mem_filter.1 ha).1
  have := h.sequence i hi
  intro h0
  rw [h0, UInt64.toNat_zero] at this
  omega

end

/-! ## What a publication does to the ring -/

section
variable (b : Bridge) (beginNs endNs : UInt64) (record : Record)
  (env : PublishEnv) (entry : PublicationTraceEntry)

/-- `account_record_flags` and `trace_publication` touch their own counter
and their own list only. -/
theorem accountRecordFlags_frame :
    ∃ n, accountRecordFlags b record = { b with stats.buttonTransitions := n } := by
  unfold accountRecordFlags
  split
  · exact ⟨_, rfl⟩
  · exact ⟨b.stats.buttonTransitions, rfl⟩

theorem tracePublication_frame :
    ∃ l, tracePublication b entry = { b with publicationTrace := l } := by
  unfold tracePublication
  split
  · exact ⟨_, rfl⟩
  · exact ⟨b.publicationTrace, rfl⟩

/-- What an attempt does to the bridge: the ring is what
`hfior_ring_publish` leaves, and beyond it only counters and the trace
change. -/
theorem publishAttempt_frame :
    ∃ stats trace, (publishAttempt b beginNs endNs record).2 = { b with
      ring := (ringPublish (allocateSequence b.ring beginNs)
        (publishAttempt b beginNs endNs record).1.record).2
      stats := stats
      publicationTrace := trace } := by
  simp only [publishAttempt]
  split
  · obtain ⟨l, hl⟩ := tracePublication_frame _ _
    obtain ⟨n, hn⟩ := accountRecordFlags_frame _ _
    rw [hn, hl]
    exact ⟨_, _, rfl⟩
  · obtain ⟨l, hl⟩ := tracePublication_frame _ _
    rw [hl]
    exact ⟨_, _, rfl⟩

theorem publishAttempt_ring :
    (publishAttempt b beginNs endNs record).2.ring =
      (ringPublish (allocateSequence b.ring beginNs)
        (publishAttempt b beginNs endNs record).1.record).2 := by
  obtain ⟨stats, trace, h⟩ := publishAttempt_frame b beginNs endNs record
  rw [h]

@[simp] theorem publishAttempt_urgentFd :
    (publishAttempt b beginNs endNs record).2.urgentFd = b.urgentFd := by
  obtain ⟨stats, trace, h⟩ := publishAttempt_frame b beginNs endNs record
  rw [h]

end

/-- An attempt takes the next sequence, and it is counted if it is
dropped. -/
theorem numbered_publishAttempt {b : Bridge} {attempts : List Attempt}
    (h : Numbered b.ring attempts) (beginNs endNs : UInt64) (record : Record)
    (hlt : attempts.length + 2 < 2 ^ 64) :
    Numbered (publishAttempt b beginNs endNs record).2.ring
      (attempts ++ [(publishAttempt b beginNs endNs record).1]) := by
  refine h.append rfl ?_ ?_ hlt
  · rw [publishAttempt_ring, ringPublish_nextSequence]
    rfl
  · rw [publishAttempt_ring, ringPublish_droppedNewest]
    rfl

theorem publishAttempt_metadata (b : Bridge) (beginNs endNs : UInt64)
    (record : Record) :
    (publishAttempt b beginNs endNs record).2.ring.metadata =
      b.ring.metadata := by
  rw [publishAttempt_ring, ringPublish_metadata]
  rfl

theorem publishAttempt_tail (b : Bridge) (beginNs endNs : UInt64)
    (record : Record) :
    (publishAttempt b beginNs endNs record).2.ring.consumer.tail =
      b.ring.consumer.tail := by
  rw [publishAttempt_ring, ringPublish_consumer]
  rfl

/-- An attempt is accepted if the window has room. -/
theorem publishAttempt_published {b : Bridge} {log : List Record}
    (h : Represents b.ring log) (beginNs endNs : UInt64) (record : Record)
    (hroom : log.length <
      b.ring.consumer.tail.toNat + b.ring.metadata.capacity.toNat) :
    (publishAttempt b beginNs endNs record).1.published = true := by
  have hring : Represents (allocateSequence b.ring beginNs) log :=
    h.sameWindow ⟨rfl, rfl, rfl, rfl⟩
  show (ringPublish (allocateSequence b.ring beginNs) _).1 = true
  rw [ringPublish_of_room _ hring hroom]

/-- An attempt is the append of its record, or nothing.  The bound says
that the head does not wrap. -/
theorem represents_publishAttempt {b : Bridge} {attempts : List Attempt}
    (h : Represents b.ring (acceptedRecords attempts)) (beginNs endNs : UInt64)
    (record : Record)
    (hlt : (acceptedRecords (attempts ++
      [(publishAttempt b beginNs endNs record).1])).length < 2 ^ 64) :
    Represents (publishAttempt b beginNs endNs record).2.ring
      (acceptedRecords (attempts ++
        [(publishAttempt b beginNs endNs record).1])) := by
  rw [publishAttempt_ring]
  generalize ha : (publishAttempt b beginNs endNs record).1 = a at hlt ⊢
  have hpublished : a.published =
      (ringPublish (allocateSequence b.ring beginNs) a.record).1 := by
    rw [← ha]
    rfl
  have hring : Represents (allocateSequence b.ring beginNs)
      (acceptedRecords attempts) := h.sameWindow ⟨rfl, rfl, rfl, rfl⟩
  rcases h.le_tail.eq_or_lt with hfull | hroom
  · have hdrop := ringPublish_of_full a.record hring hfull
    rw [acceptedRecords_append_of_dropped (by rw [hpublished, hdrop]), hdrop]
    exact hring.sameWindow (sameWindow_dropNewest _)
  · have htrue : a.published = true := by
      rw [← ha]
      exact publishAttempt_published h beginNs endNs record hroom
    rw [acceptedRecords_append_of_published htrue] at hlt ⊢
    exact represents_ringPublish_of_room a.record hring hroom
      (by simpa using hlt)

section
variable (b : Bridge) (env : PublishEnv) (record : Record) (a : Attempt)
  (send dropUrgent urgent : IoResult)

theorem sameWindow_announceUrgent :
    SameWindow b.ring (announceUrgent b a urgent).ring := by
  unfold announceUrgent
  split
  · exact SameWindow.refl _
  · exact sameWindow_writeUrgent _ _

/-- The announcement leaves alone what an eager copy and an eventfd write
leave alone. -/
theorem sameWindow_announce :
    SameWindow b.ring (announce b a send dropUrgent urgent).1.ring := by
  have heager : SameWindow b.ring (if a.published then
      sendEagerRecord b a.record send dropUrgent else (b, none)).1.ring := by
    split
    · exact sameWindow_sendEagerRecord b a.record send dropUrgent
    · exact SameWindow.refl _
  exact heager.trans (sameWindow_announceUrgent _ a urgent)

theorem sameLedger_announceUrgent :
    SameLedger b.ring (announceUrgent b a urgent).ring := by
  unfold announceUrgent
  split
  · exact SameLedger.refl _
  · exact sameLedger_writeUrgent _ urgent

theorem sameLedger_announce :
    SameLedger b.ring (announce b a send dropUrgent urgent).1.ring := by
  have heager : SameLedger b.ring (if a.published then
      sendEagerRecord b a.record send dropUrgent else (b, none)).1.ring := by
    split
    · exact sameLedger_sendEagerRecord b a.record send dropUrgent
    · exact SameLedger.refl _
  exact heager.trans (sameLedger_announceUrgent _ a urgent)

/-- A whole `publish_record` keeps the metadata and the tail. -/
theorem publishRecord_metadata :
    (publishRecord b env record).bridge.ring.metadata = b.ring.metadata :=
  (sameWindow_announce _ _ _ _ _).metadata.trans (publishAttempt_metadata _ _ _ _)

theorem publishRecord_consumer_tail :
    (publishRecord b env record).bridge.ring.consumer.tail =
      b.ring.consumer.tail :=
  (sameWindow_announce _ _ _ _ _).tail.trans (publishAttempt_tail _ _ _ _)

end

/-! ## All that an announcement changes -/

/-- The counters of an announcement, which the bridge and the ring both
keep, the counter of the eventfd and the stop flag. -/
def announced (b : Bridge) (sent dropped written urgentFd : UInt64) (stop : Bool) :
    Bridge :=
  { b with
    stats := { b.stats with
      eagerPacketsSent := b.stats.eagerPacketsSent + sent
      eagerSendDrops := b.stats.eagerSendDrops + dropped
      urgentWrites := b.stats.urgentWrites + written }
    ring := { b.ring with
      producer := { b.ring.producer with
        eagerSendDrops := b.ring.producer.eagerSendDrops + dropped
        urgentWrites := b.ring.producer.urgentWrites + written }
      stats.eagerPacketsSent := b.ring.stats.eagerPacketsSent + sent }
    urgentFd := urgentFd
    stopRequested := stop }

section
variable (b : Bridge) (a : Attempt) (record : Record) (send dropUrgent urgent : IoResult)

theorem announced_zero : announced b 0 0 0 b.urgentFd b.stopRequested = b := by
  simp [announced]

theorem announced_announced (sent dropped written urgentFd sent' dropped' written'
    urgentFd' : UInt64) (stop stop' : Bool) :
    announced (announced b sent dropped written urgentFd stop)
        sent' dropped' written' urgentFd' stop' =
      announced b (sent + sent') (dropped + dropped') (written + written')
        urgentFd' stop' := by
  simp [announced, UInt64.add_assoc]

theorem writeUrgent_announced :
    ∃ written urgentFd, writeUrgent b urgent =
      announced b 0 0 written urgentFd b.stopRequested := by
  cases urgent with
  | done => exact ⟨1, b.urgentFd + 1, by simp [announced, writeUrgent]⟩
  | failed errno => exact ⟨0, b.urgentFd, (announced_zero b).symm⟩

theorem sendEagerRecord_announced :
    ∃ sent dropped written urgentFd stop,
      (sendEagerRecord b record send urgent).1 =
        announced b sent dropped written urgentFd stop := by
  have hnone : ∃ sent dropped written urgentFd stop,
      b = announced b sent dropped written urgentFd stop :=
    ⟨0, 0, 0, b.urgentFd, b.stopRequested, (announced_zero b).symm⟩
  have hdrop : ∃ sent dropped written urgentFd stop,
      writeUrgent (countEagerDrop b) urgent =
        announced b sent dropped written urgentFd stop := by
    have hcount : countEagerDrop b = announced b 0 1 0 b.urgentFd b.stopRequested := by
      simp [announced, countEagerDrop]
    obtain ⟨written, urgentFd, hwrite⟩ := writeUrgent_announced (countEagerDrop b) urgent
    rw [hwrite, hcount, announced_announced]
    exact ⟨_, _, _, _, _, rfl⟩
  unfold sendEagerRecord
  split
  · exact hnone
  split
  · exact ⟨1, 0, 0, b.urgentFd, b.stopRequested, by simp [announced, countEagerSent]⟩
  · exact hdrop
  · exact hdrop
  · exact ⟨0, 0, 0, b.urgentFd, true, by simp [announced]⟩
  · exact ⟨0, 0, 0, b.urgentFd, true, by simp [announced]⟩
  · exact hnone

/-- An announcement counts the same in the bridge and in the ring, and it
changes nothing else. -/
theorem announce_announced :
    ∃ sent dropped written urgentFd stop,
      (announce b a send dropUrgent urgent).1 =
        announced b sent dropped written urgentFd stop := by
  have heager : ∃ sent dropped written urgentFd stop, (if a.published then
      sendEagerRecord b a.record send dropUrgent else (b, none)).1 =
        announced b sent dropped written urgentFd stop := by
    split
    · exact sendEagerRecord_announced b a.record send dropUrgent
    · exact ⟨0, 0, 0, b.urgentFd, b.stopRequested, (announced_zero b).symm⟩
  obtain ⟨sent, dropped, written, urgentFd, stop, hsent⟩ := heager
  simp only [announce, announceUrgent, hsent]
  split
  · exact ⟨_, _, _, _, _, rfl⟩
  · obtain ⟨written', urgentFd', hwrite⟩ :=
      writeUrgent_announced (announced b sent dropped written urgentFd stop) urgent
    rw [hwrite, announced_announced]
    exact ⟨_, _, _, _, _, rfl⟩

end

theorem publishRecord_generation (b : Bridge) (env : PublishEnv) (record : Record) :
    (publishRecord b env record).bridge.generation = b.generation := by
  obtain ⟨sent, dropped, written, urgentFd, stop, hsent⟩ := announce_announced
    (publishAttempt b env.beginNs env.endNs record).2
    (publishAttempt b env.beginNs env.endNs record).1 env.send env.dropUrgent env.urgent
  obtain ⟨stats, trace, htried⟩ := publishAttempt_frame b env.beginNs env.endNs record
  simp only [publishRecord, hsent, announced]
  rw [htried]

/-- A whole `publish_record` is the append of its record, or nothing. -/
theorem represents_publishRecord {b : Bridge} {attempts : List Attempt}
    (h : Represents b.ring (acceptedRecords attempts)) (env : PublishEnv)
    (record : Record)
    (hlt : (acceptedRecords (attempts ++
      [(publishRecord b env record).attempt])).length < 2 ^ 64) :
    Represents (publishRecord b env record).bridge.ring
      (acceptedRecords (attempts ++ [(publishRecord b env record).attempt])) :=
  (represents_publishAttempt h env.beginNs env.endNs record hlt).sameWindow
    (sameWindow_announce _ _ _ _ _)

theorem numbered_publishRecord {b : Bridge} {attempts : List Attempt}
    (h : Numbered b.ring attempts) (env : PublishEnv) (record : Record)
    (hlt : attempts.length + 2 < 2 ^ 64) :
    Numbered (publishRecord b env record).bridge.ring
      (attempts ++ [(publishRecord b env record).attempt]) :=
  (numbered_publishAttempt h env.beginNs env.endNs record hlt).sameLedger
    (sameLedger_announce _ _ _ _ _)

end Hfior
