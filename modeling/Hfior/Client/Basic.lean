import Hfior.Client.Ledger
import Hfior.Ring

/-!
# The state of the latency client

The parts of `struct client` in `reference/latency-client/main.c` that the
ring, the control socket and the pending queue need, and the functions on
them.  The loops that two threads run are in the models of the clients;
their bodies are here.

A function of the source that may call `die` returns an `Option`, and
`none` is the exit of the process.  A failed `malloc` is left out.
-/

namespace Hfior

inductive ClientPolicy where
  | eagerThread | hfiorCriticalAck | hfiorLate | hfiorMulti | hfiorTwoStage
  | hfiorSpin | hfiorLateLatch
deriving DecidableEq, Repr

/-- `enum receipt_reason`. -/
inductive ReceiptReason where
  | urgent | frameRing | finalRing | eagerThread | shutdown
deriving DecidableEq, Repr

structure ReceiptEntry where
  receiptTimeNs : UInt64
  record : Record
  reason : ReceiptReason
deriving DecidableEq, Repr

/-- `struct record_queue`; its `length` is the length of `records`. -/
structure RecordQueue where
  records : List Record
  capacity : Nat
deriving DecidableEq, Repr

structure ClientStats where
  ringChecks : UInt64
  nonemptyRingChecks : UInt64
  ringRecords : UInt64
  shadowRingRecords : UInt64
  eagerMessages : UInt64
  eagerRecords : UInt64
  controlMessages : UInt64
  acknowledgementsSent : UInt64
  urgentReads : UInt64
  urgentCounterTotal : UInt64
  generationChanges : UInt64
  ledger : Ledger
deriving DecidableEq, Repr

structure Client where
  policy : ClientPolicy
  recordTrace : Bool
  stats : ClientStats
  generation : UInt64
  localTail : UInt64
  lastAckedTail : UInt64
  pending : RecordQueue
  terminalSeen : Bool
  receipts : List ReceiptEntry
  buttonAges : List UInt64
  eagerIngressAges : List UInt64
deriving DecidableEq, Repr

/-- The client behind `receive_hello` and the head load of
`synchronize_start`. -/
def Client.start (policy : ClientPolicy) (generation position : UInt64) :
    Client where
  policy := policy
  recordTrace := false
  stats := ⟨0, 0, 0, 0, 0, 0, 0, 0, 0, 0, 0, .zero⟩
  generation := generation
  localTail := position
  lastAckedTail := position
  pending := ⟨[], 0⟩
  terminalSeen := false
  receipts := []
  buttonAges := []
  eagerIngressAges := []

/-! ## The pending queue -/

/-- `SIZE_MAX`. -/
def sizeMax : Nat := 2 ^ 64 - 1

/-- The doubling loop of `queue_reserve_locked`.  The capacity is at least
one, so 64 rounds are enough. -/
def growCapacity : Nat → Nat → Nat → Option Nat
  | 0, _, _ => none
  | rounds + 1, capacity, wanted =>
    if wanted ≤ capacity then some capacity
    else if capacity > sizeMax / 2 then none
    else growCapacity rounds (capacity * 2) wanted

/-- `queue_reserve_locked`. -/
def queueReserve (queue : RecordQueue) (wanted : Nat) : Option RecordQueue :=
  if wanted ≤ queue.capacity then some queue
  else do
    let capacity ← growCapacity 64
      (if queue.capacity = 0 then 4096 else queue.capacity) wanted
    some { queue with capacity := capacity }

/-- `queue_push`. -/
def queuePush (queue : RecordQueue) (records : List Record) : Option RecordQueue :=
  if records.length = 0 then some queue
  else do
    let queue ← queueReserve queue (queue.records.length + records.length)
    some { queue with records := queue.records ++ records }

/-- `queue_take_all`: the records, and the emptied queue. -/
def queueTakeAll (queue : RecordQueue) : List Record × RecordQueue :=
  (queue.records, { queue with records := [] })

section
variable {queue queue' : RecordQueue} {records : List Record}

theorem queueReserve_records {wanted : Nat}
    (h : queueReserve queue wanted = some queue') :
    queue'.records = queue.records := by
  unfold queueReserve at h
  split at h
  · cases h
    rfl
  · obtain ⟨capacity, -, hq⟩ := Option.bind_eq_some_iff.1 h
    cases hq
    rfl

/-- A push appends. -/
theorem queuePush_records (h : queuePush queue records = some queue') :
    queue'.records = queue.records ++ records := by
  unfold queuePush at h
  split at h
  · rename_i hempty
    cases h
    rw [List.length_eq_zero_iff.1 hempty, List.append_nil]
  · obtain ⟨reserved, hreserve, hq⟩ := Option.bind_eq_some_iff.1 h
    cases hq
    rw [queueReserve_records hreserve]

/-- The doubling loop ends with enough room, within its rounds. -/
theorem growCapacity_isSome (rounds : Nat) {capacity wanted : Nat}
    (hwanted : wanted ≤ 2 ^ 63) (hrounds : wanted ≤ capacity * 2 ^ rounds) :
    ∃ c, growCapacity (rounds + 1) capacity wanted = some c ∧ wanted ≤ c := by
  induction rounds generalizing capacity with
  | zero =>
    have hle : wanted ≤ capacity := by simpa using hrounds
    exact ⟨capacity, if_pos hle, hle⟩
  | succ rounds ih =>
    rw [growCapacity]
    by_cases hle : wanted ≤ capacity
    · exact ⟨capacity, if_pos hle, hle⟩
    · have hsmall : ¬ capacity > sizeMax / 2 := by
        rw [sizeMax]
        omega
      rw [if_neg hle, if_neg hsmall]
      refine ih ?_
      rw [Nat.pow_succ] at hrounds
      rw [Nat.mul_assoc, Nat.mul_comm 2]
      exact hrounds

/-- A queue below 2^63 records always has room for a push. -/
theorem queuePush_isSome
    (hwanted : queue.records.length + records.length ≤ 2 ^ 63) :
    ∃ queue', queuePush queue records = some queue' := by
  unfold queuePush
  split
  · exact ⟨queue, rfl⟩
  unfold queueReserve
  split
  · exact ⟨_, rfl⟩
  · have hstart : 1 ≤ if queue.capacity = 0 then 4096 else queue.capacity := by
      split <;> omega
    obtain ⟨c, hc, -⟩ := growCapacity_isSome 63 hwanted
      (Nat.le_trans hwanted (Nat.le_mul_of_pos_left _ hstart))
    rw [hc]
    exact ⟨_, rfl⟩

end

/-! ## Records that arrive -/

/-- `account_sequences`. -/
def accountSequences (c : Client) (records : List Record) : Client :=
  { c with
    stats.ledger := c.stats.ledger.account records
    terminalSeen := c.terminalSeen || Ledger.terminalSeen records }

/-- The age of a record, or zero if its clock is ahead. -/
def ageNs (nowNs : UInt64) (record : Record) : UInt64 :=
  if nowNs ≥ record.timestampNs then nowNs - record.timestampNs else 0

/-- The ages of the button records. -/
def pushButtonAges (c : Client) (records : List Record) (nowNs : UInt64) : Client :=
  { c with buttonAges := c.buttonAges ++
      (records.filter fun r => r.has HFIOR_RECORD_BUTTON).map (ageNs nowNs) }

/-- `log_records`. -/
def logRecords (c : Client) (reason : ReceiptReason) (records : List Record)
    (nowNs : UInt64) : Client :=
  if c.recordTrace then
    { c with receipts := c.receipts ++ records.map fun r => ⟨nowNs, r, reason⟩ }
  else c

/-- A push to the pending queue. -/
def pushPending (c : Client) (records : List Record) : Option Client := do
  let queue ← queuePush c.pending records
  some { c with pending := queue }

/-! ## The body of `drain_ring` -/

/-- The number of records of one batch. -/
def drainBatchSize : UInt64 := 4096

def countRingCheck (c : Client) : Client :=
  { c with stats.ringChecks := c.stats.ringChecks + 1 }

/-- The snapshot of one batch moves the local tail. -/
def advanceTail (c : Client) (count : UInt64) : Client :=
  { c with localTail := c.localTail + count }

/-- What `drain_ring` does with a batch before it is pushed. -/
def accountBatch (c : Client) (reason : ReceiptReason) (batch : List Record)
    (nowNs : UInt64) : Client :=
  let c := accountSequences c batch
  let c := if reason = .urgent then pushButtonAges c batch nowNs else c
  logRecords c reason batch nowNs

/-- `ring_records += count`. -/
def countRingRecords (c : Client) (count : Nat) : Client :=
  { c with stats.ringRecords := c.stats.ringRecords + UInt64.ofNat count }

/-- `shadow_ring_records += count`. -/
def countShadowRecords (c : Client) (count : Nat) : Client :=
  { c with stats.shadowRingRecords :=
      c.stats.shadowRingRecords + UInt64.ofNat count }

/-- The counter of a drain that found records. -/
def countNonempty (c : Client) (total : UInt64) : Client :=
  if total != 0 then
    { c with stats.nonemptyRingChecks := c.stats.nonemptyRingChecks + 1 }
  else c

/-- One round of the loop of `drain_ring`: the snapshot of a batch, and what
is done with it.  A shadow drain only counts. -/
def drainRound (c : Client) (r : RingHeader) (reason : ReceiptReason)
    (shadow : Bool) (nowNs : UInt64) : Option Client :=
  match ringReadSnapshot (some r) (some c.localTail) true drainBatchSize with
  | .error _ => none
  | .ok (batch, localTail) =>
    let c := { c with localTail := localTail }
    if shadow then some (countShadowRecords c batch.length)
    else do
      let c ← pushPending (accountBatch c reason batch nowNs) batch
      some (countRingRecords c batch.length)

/-- `send_ack_if_needed`: the client, and the message if one was sent. -/
def sendAckIfNeeded (c : Client) (send : IoResult) :
    Option (Client × Option AckMessage) :=
  if c.localTail == c.lastAckedTail then some (c, none)
  else match send with
    | .failed _ => none
    | .done => some ({ c with
        lastAckedTail := c.localTail
        stats.acknowledgementsSent := c.stats.acknowledgementsSent + 1 },
      some ⟨c.generation, c.localTail⟩)

/-! ## The control socket -/

/-- A message of the bridge, as the client reads it. -/
inductive BridgeMessage where
  | eagerRecord (message : EagerRecordMessage)
  | deviceState (message : DeviceStateMessage)
  | other (header : MessageHeader)
deriving DecidableEq, Repr

def countControl (c : Client) : Client :=
  { c with stats.controlMessages := c.stats.controlMessages + 1 }

/-- The DEVICE_STATE branch of `drain_control_socket_nonblocking`. -/
def adoptGeneration (c : Client) (message : DeviceStateMessage) : Client :=
  if message.generation != c.generation then
    { c with
      generation := message.generation
      stats.generationChanges := c.stats.generationChanges + 1 }
  else c

/-- `process_eager_message` up to the queue push. -/
def accountEager (c : Client) (message : EagerRecordMessage) (nowNs : UInt64) :
    Client :=
  let c := { c with
    stats.eagerMessages := c.stats.eagerMessages + 1
    stats.eagerRecords := c.stats.eagerRecords + 1 }
  let c := accountSequences c [message.record]
  let c := if nowNs ≥ message.record.timestampNs then
      { c with eagerIngressAges := c.eagerIngressAges ++
          [nowNs - message.record.timestampNs] }
    else c
  let c := pushButtonAges c [message.record] nowNs
  logRecords c .eagerThread [message.record] nowNs

/-- `process_eager_message`. -/
def processEagerMessage (c : Client) (message : EagerRecordMessage)
    (nowNs : UInt64) : Option Client :=
  pushPending (accountEager c message nowNs) [message.record]

/-- What `drain_control_socket_nonblocking` does with one message. -/
def receiveMessage (c : Client) (acceptEager : Bool) (nowNs : UInt64) :
    BridgeMessage → Option Client
  | .eagerRecord message =>
    if acceptEager then processEagerMessage c message nowNs
    else some (countControl c)
  | .deviceState message => some (countControl (adoptGeneration c message))
  | .other _ => some (countControl c)

/-! ## What the functions leave alone -/

section
variable {c c' : Client} {records : List Record} {nowNs : UInt64}
  {reason : ReceiptReason}

/-- Accounting a batch writes the ledger and the traces. -/
theorem accountBatch_frame (c : Client) (reason : ReceiptReason)
    (batch : List Record) (nowNs : UInt64) :
    ∃ seen ages receipts, accountBatch c reason batch nowNs = { c with
      stats.ledger := c.stats.ledger.account batch
      terminalSeen := seen
      buttonAges := ages
      receipts := receipts } := by
  simp only [accountBatch, logRecords]
  split <;> split <;> exact ⟨_, _, _, rfl⟩

theorem accountEager_ledger (c : Client) (message : EagerRecordMessage)
    (nowNs : UInt64) : (accountEager c message nowNs).stats.ledger =
      c.stats.ledger.account [message.record] := by
  simp only [accountEager, logRecords]
  split <;> split <;> rfl

theorem accountEager_pending (c : Client) (message : EagerRecordMessage)
    (nowNs : UInt64) : (accountEager c message nowNs).pending = c.pending := by
  simp only [accountEager, logRecords]
  split <;> split <;> rfl

theorem pushPending_frame (h : pushPending c records = some c') :
    ∃ queue, queue.records = c.pending.records ++ records ∧
      c' = { c with pending := queue } := by
  obtain ⟨queue, hpush, hc⟩ := Option.bind_eq_some_iff.1 h
  cases hc
  exact ⟨queue, queuePush_records hpush, rfl⟩

theorem countNonempty_frame (c : Client) (total : UInt64) :
    ∃ n, countNonempty c total = { c with stats.nonemptyRingChecks := n } := by
  unfold countNonempty
  split
  · exact ⟨_, rfl⟩
  · exact ⟨c.stats.nonemptyRingChecks, rfl⟩

/-- An empty batch leaves the client as it was. -/
theorem accountBatch_nil (c : Client) (reason : ReceiptReason) (nowNs : UInt64) :
    accountBatch c reason [] nowNs = c := by
  simp [accountBatch, accountSequences, Ledger.account, Ledger.terminalSeen,
    pushButtonAges, logRecords]

/-- A round, with its batch. -/
theorem drainRound_eq {c c' : Client} {r : RingHeader} {reason : ReceiptReason}
    {nowNs available : UInt64}
    (havailable : snapshotAvailable r.metadata.capacity r.producer.head c.localTail
      drainBatchSize = .ok available)
    (hround : drainRound c r reason false nowNs = some c') :
    ∃ pushed, pushPending (accountBatch (advanceTail c available) reason
        (copySlots r c.localTail available) nowNs)
          (copySlots r c.localTail available) = some pushed ∧
      c' = countRingRecords pushed (copySlots r c.localTail available).length := by
  have hread : ringReadSnapshot (some r) (some c.localTail) true drainBatchSize =
      .ok (copySlots r c.localTail available, c.localTail + available) := by
    simp only [ringReadSnapshot, havailable]
    rfl
  simp only [drainRound, hread] at hround
  obtain ⟨pushed, hpush, hc⟩ := Option.bind_eq_some_iff.1 hround
  exact ⟨pushed, hpush, (Option.some.inj hc).symm⟩

/-- A round that finds no record changes nothing. -/
theorem drainRound_empty {c c' : Client} {r : RingHeader} {reason : ReceiptReason}
    {nowNs : UInt64}
    (havailable : snapshotAvailable r.metadata.capacity r.producer.head c.localTail
      drainBatchSize = .ok 0)
    (hround : drainRound c r reason false nowNs = some c') : c' = c := by
  obtain ⟨pushed, hpush, rfl⟩ := drainRound_eq havailable hround
  have hnone : copySlots r c.localTail 0 = [] := rfl
  have htail : advanceTail c 0 = c := by
    rw [advanceTail, UInt64.add_zero]
  rw [hnone, htail, accountBatch_nil] at hpush
  obtain rfl : c = pushed := Option.some.inj hpush
  rw [hnone, countRingRecords]
  simp

/-- A round moves the local tail to the end of its batch. -/
theorem drainRound_frame {r : RingHeader} {shadow : Bool} {batch : List Record}
    {localTail : UInt64}
    (hread : ringReadSnapshot (some r) (some c.localTail) true drainBatchSize =
      .ok (batch, localTail))
    (h : drainRound c r reason shadow nowNs = some c') :
    c'.localTail = localTail ∧ c'.lastAckedTail = c.lastAckedTail := by
  simp only [drainRound, hread] at h
  split at h
  · cases h
    exact ⟨rfl, rfl⟩
  · obtain ⟨pushed, hpush, hc⟩ := Option.bind_eq_some_iff.1 h
    obtain ⟨queue, -, rfl⟩ := pushPending_frame hpush
    obtain ⟨seen, ages, receipts, haccount⟩ :=
      accountBatch_frame { c with localTail := localTail } reason batch nowNs
    rw [haccount] at hc
    cases hc
    exact ⟨rfl, rfl⟩

/-- A message moves no position. -/
theorem receiveMessage_frame {acceptEager : Bool} {message : BridgeMessage}
    (h : receiveMessage c acceptEager nowNs message = some c') :
    c'.localTail = c.localTail ∧ c'.lastAckedTail = c.lastAckedTail := by
  cases message with
  | eagerRecord message =>
    rw [receiveMessage] at h
    split at h
    · obtain ⟨queue, -, rfl⟩ := pushPending_frame h
      simp only [accountEager, logRecords]
      split <;> split <;> exact ⟨rfl, rfl⟩
    · cases h
      exact ⟨rfl, rfl⟩
  | deviceState message =>
    cases h
    rw [adoptGeneration]
    split <;> exact ⟨rfl, rfl⟩
  | other header =>
    cases h
    exact ⟨rfl, rfl⟩

/-- An ACK is sent for the local tail, or there is nothing to
acknowledge. -/
theorem sendAckIfNeeded_cases {send : IoResult} {message : Option AckMessage}
    (h : sendAckIfNeeded c send = some (c', message)) :
    (c.localTail = c.lastAckedTail ∧ c' = c ∧ message = none) ∨
    (message = some ⟨c.generation, c.localTail⟩ ∧
      ∃ n, c' = { c with
        lastAckedTail := c.localTail
        stats.acknowledgementsSent := n }) := by
  unfold sendAckIfNeeded at h
  split at h
  · rename_i heq
    cases h
    exact .inl ⟨beq_iff_eq.1 heq, rfl, rfl⟩
  · cases send with
    | failed errno => cases h
    | done =>
      cases h
      exact .inr ⟨rfl, _, rfl⟩

end

end Hfior
