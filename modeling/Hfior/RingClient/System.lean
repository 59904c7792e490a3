import Hfior.AckChannel
import Hfior.Bridge.Urgent
import Hfior.Client.Basic

/-!
# The bridge and the two threads of a ring client

The ingress thread waits for the urgent eventfd and drains the ring, and the
frame thread drains the ring and takes the pending records.  Both drain
under `ring_drain_mutex`, so at most one drain is in progress, and
`RingDrain` is its state.  The steps of a drain that touch shared data are
steps of the machine: a head load, the copy of a batch, the accounting, the
push to the queue under the queue mutex, and the counters.

On the other side a `publish_record` is two steps, the attempt and its
announcement, and no other call of the bridge comes between them.

A call that ends in `die` is not a step, since the process is gone.

The fields `loaded`, `attempts`, `start`, `taken` and `accounted` are
ghosts: no step of the program reads them.
-/

namespace Hfior

inductive ClientThread where
  | ingress | frame
deriving DecidableEq, Repr

/-- Where a `drain_ring` is, behind its lock. -/
inductive DrainPhase where
  /-- About to load the head. -/
  | load
  /-- The head is loaded, and `available` records are to be copied. -/
  | copy (available : UInt64)
  /-- The batch is copied, and the local tail is behind it. -/
  | account (batch : List Record)
  | push (batch : List Record)
  | count (batch : List Record)
  /-- Out of the loop. -/
  | finish
deriving DecidableEq, Repr

/-- A `drain_ring` in progress. -/
structure RingDrain where
  thread : ClientThread
  reason : ReceiptReason
  acknowledgeNow : Bool
  total : UInt64
  phase : DrainPhase
  /-- The head of the last load. -/
  loaded : UInt64
deriving DecidableEq, Repr

structure RingSystem where
  bridge : Bridge
  /-- The attempt of a `publish_record` that is not announced yet. -/
  announcing : Option Attempt
  client : Client
  /-- The ingress thread has read the eventfd and has not locked the mutex. -/
  signalled : Bool
  drain : Option RingDrain
  /-- The ACKs in flight, oldest first. -/
  channel : List AckMessage
  /-- All publication attempts. -/
  attempts : List Attempt
  /-- The first position of the client. -/
  start : Nat
  /-- The batches that `take_pending` returned. -/
  taken : List (List Record)
  /-- The records that `account_sequences` has seen. -/
  accounted : List Record

namespace RingSystem

def head (s : RingSystem) : UInt64 := s.bridge.ring.producer.head

def tail (s : RingSystem) : UInt64 := s.bridge.ring.consumer.tail

def capacity (s : RingSystem) : UInt32 := s.bridge.ring.metadata.capacity

def accepted (s : RingSystem) : List Record := acceptedRecords s.attempts

/-- A client with the generation of its hello that has loaded its first
position, on a bridge that has made the attempts `attempts`. -/
def initial (b : Bridge) (attempts : List Attempt) (policy : ClientPolicy)
    (generation position : UInt64) : RingSystem where
  bridge := b
  announcing := none
  client := .start policy generation position
  signalled := false
  drain := none
  channel := []
  attempts := attempts
  start := position.toNat
  taken := []
  accounted := []

/-! ## The bridge -/

/-- `publish_record` up to the store of the head. -/
def publish (s : RingSystem) (beginNs endNs : UInt64) (record : Record) :
    RingSystem :=
  let tried := publishAttempt s.bridge beginNs endNs record
  { s with
    bridge := tried.2
    announcing := some tried.1
    attempts := s.attempts ++ [tried.1] }

/-- The rest of `publish_record`. -/
def announceAttempt (s : RingSystem) (a : Attempt)
    (send dropUrgent urgent : IoResult) : RingSystem :=
  { s with
    bridge := (announce s.bridge a send dropUrgent urgent).1
    announcing := none }

/-- The bridge takes the oldest ACK from the socket. -/
def deliver (s : RingSystem) (ack : AckMessage) (rest : List AckMessage)
    (nowNs : UInt64) (urgent : IoResult) : RingSystem :=
  { s with
    bridge := (handleControlMessage s.bridge (.ok ack.bytes) nowNs urgent).bridge
    channel := rest }

theorem deliver_eq (s : RingSystem) (ack : AckMessage) (rest : List AckMessage)
    (nowNs : UInt64) (urgent : IoResult) :
    s.deliver ack rest nowNs urgent = { s with
      bridge := handleAck (countControlMessage s.bridge) ack nowNs urgent
      channel := rest } := by
  rw [deliver, handleControlMessage_ackBytes]

def loseDevice (s : RingSystem) (send urgent : IoResult) : RingSystem :=
  { s with bridge := (markDeviceGone s.bridge send urgent).1 }

def reconnect (s : RingSystem) (fd : Int32) (send urgent : IoResult) :
    RingSystem :=
  { s with bridge := (tryReconnectDevice s.bridge fd send urgent).2.1 }

/-- Whether a call of the bridge that writes the eventfd may start. -/
def callAllowed (s : RingSystem) (urgent : IoResult) : Bool :=
  s.announcing.isNone && eventfdAllows s.bridge.urgentFd urgent

/-! ## The ingress thread -/

/-- The ingress thread polls: it holds no signal and it is not in a
drain. -/
def ingressPolls (s : RingSystem) : Bool :=
  !s.signalled && s.drain.all fun d => d.thread != .ingress

/-- The read of the eventfd, which resets the counter. -/
def readUrgent (s : RingSystem) : RingSystem :=
  { s with
    bridge := { s.bridge with urgentFd := 0 }
    client := { s.client with
      stats.urgentReads := s.client.stats.urgentReads + 1
      stats.urgentCounterTotal :=
        s.client.stats.urgentCounterTotal + s.bridge.urgentFd }
    signalled := true }

/-! ## A drain -/

/-- A thread locks the mutex and counts the check. -/
def lock (s : RingSystem) (thread : ClientThread) (reason : ReceiptReason)
    (acknowledgeNow : Bool) : RingSystem :=
  { s with
    client := countRingCheck s.client
    drain := some {
      thread := thread
      reason := reason
      acknowledgeNow := acknowledgeNow
      total := 0
      phase := .load
      loaded := s.client.localTail } }

/-- `drain_ring` of the ingress thread. -/
def lockUrgent (s : RingSystem) : RingSystem :=
  { s.lock .ingress .urgent true with signalled := false }

/-- A successful head load. -/
def loadHead (s : RingSystem) (d : RingDrain) (available : UInt64) : RingSystem :=
  { s with drain := some { d with
      phase := if available == 0 then .finish else .copy available
      loaded := s.head } }

/-- The copy of a batch, and the move of the local tail behind it. -/
def copyBatch (s : RingSystem) (d : RingDrain) (available : UInt64) : RingSystem :=
  { s with
    client := advanceTail s.client available
    drain := some { d with
      phase := .account (copySlots s.bridge.ring s.client.localTail available)
      total := d.total + available } }

/-- The accounting of a batch. -/
def account (s : RingSystem) (d : RingDrain) (batch : List Record)
    (nowNs : UInt64) : RingSystem :=
  { s with
    client := accountBatch s.client d.reason batch nowNs
    drain := some { d with phase := .push batch }
    accounted := s.accounted ++ batch }

/-- A batch was pushed, which leaves the client `client`. -/
def pushBatch (s : RingSystem) (d : RingDrain) (batch : List Record)
    (client : Client) : RingSystem :=
  { s with client := client, drain := some { d with phase := .count batch } }

/-- The counter of a batch, and the next round of the loop if the batch was
full. -/
def countBatch (s : RingSystem) (d : RingDrain) (batch : List Record) : RingSystem :=
  { s with
    client := countRingRecords s.client batch.length
    drain := some { d with
      phase := if batch.length < drainBatchSize.toNat then .finish else .load } }

/-- The end of `drain_ring`: the counter, the ACK if one is wanted, and the
unlock. -/
def finish (s : RingSystem) (d : RingDrain) (send : IoResult) : Option RingSystem :=
  let client := countNonempty s.client d.total
  if d.acknowledgeNow then do
    let (client, message) ← sendAckIfNeeded client send
    some { s with
      client := client
      drain := none
      channel := s.channel ++ message.toList }
  else some { s with client := client, drain := none }

/-! ## The frame thread -/

/-- The frame thread is not in a drain. -/
def frameRuns (s : RingSystem) : Bool :=
  s.drain.all fun d => d.thread != .frame

/-- `take_pending`. -/
def takePending (s : RingSystem) : RingSystem :=
  { s with
    client := { s.client with pending := (queueTakeAll s.client.pending).2 }
    taken := s.taken ++ [(queueTakeAll s.client.pending).1] }

/-- An ACK of the frame thread, under the mutex. -/
def frameAck (s : RingSystem) (send : IoResult) : Option RingSystem := do
  let (client, message) ← sendAckIfNeeded s.client send
  some { s with client := client, channel := s.channel ++ message.toList }

end RingSystem

/-! ## The machine -/

/-- The steps.  A label carries what the caller passes, and what the
system calls and the clock return. -/
inductive RingLabel where
  | publish (beginNs endNs : UInt64) (record : Record)
  | announce (send dropUrgent urgent : IoResult)
  | deliver (nowNs : UInt64) (urgent : IoResult)
  | gone (send urgent : IoResult)
  | reconnect (fd : Int32) (send urgent : IoResult)
  | readUrgent
  | lockUrgent
  | lockFrame (reason : ReceiptReason) (acknowledgeNow : Bool)
  | load
  | copy
  | account (nowNs : UInt64)
  | push
  | count
  | finish (send : IoResult)
  | takePending
  | frameAck (send : IoResult)
deriving DecidableEq

/-- One step of a drain in progress. -/
def drainStep (s : RingSystem) (d : RingDrain) : RingLabel → Option RingSystem
  | .load => match d.phase with
    | .load => match snapshotAvailable s.capacity s.head s.client.localTail
        drainBatchSize with
      | .error _ => none
      | .ok available => some (s.loadHead d available)
    | _ => none
  | .copy => match d.phase with
    | .copy available => some (s.copyBatch d available)
    | _ => none
  | .account nowNs => match d.phase with
    | .account batch => some (s.account d batch nowNs)
    | _ => none
  | .push => match d.phase with
    | .push batch => (pushPending s.client batch).map (s.pushBatch d batch)
    | _ => none
  | .count => match d.phase with
    | .count batch => some (s.countBatch d batch)
    | _ => none
  | .finish send => match d.phase with
    | .finish => s.finish d send
    | _ => none
  | _ => none

/-- One step.  A label is enabled where the threads and the mutex allow
it. -/
def ringStep (s : RingSystem) : RingLabel → Option RingSystem
  | .publish beginNs endNs record =>
    if s.announcing.isNone then some (s.publish beginNs endNs record) else none
  | .announce send dropUrgent urgent => match s.announcing with
    | some a =>
      if announceAllowed s.bridge a send dropUrgent urgent then
        some (s.announceAttempt a send dropUrgent urgent)
      else none
    | none => none
  | .deliver nowNs urgent => match s.channel with
    | ack :: rest =>
      if s.callAllowed urgent then some (s.deliver ack rest nowNs urgent) else none
    | [] => none
  | .gone send urgent =>
    if s.callAllowed urgent then some (s.loseDevice send urgent) else none
  | .reconnect fd send urgent =>
    if s.callAllowed urgent then some (s.reconnect fd send urgent) else none
  | .readUrgent =>
    if s.ingressPolls && s.bridge.urgentFd != 0 then some s.readUrgent else none
  | .lockUrgent =>
    if s.signalled && s.drain.isNone then some s.lockUrgent else none
  | .lockFrame reason acknowledgeNow =>
    if s.drain.isNone then some (s.lock .frame reason acknowledgeNow) else none
  | .takePending => if s.frameRuns then some s.takePending else none
  | .frameAck send => if s.drain.isNone then s.frameAck send else none
  | label => match s.drain with
    | some d => drainStep s d label
    | none => none

/-- The interleavings of the bridge, the ingress thread and the frame
thread. -/
def ringMachine : Machine RingSystem RingLabel where
  step := ringStep

/-- Everything that a step can do: the transitions with their guards. -/
inductive RingStep (s : RingSystem) : RingLabel → RingSystem → Prop
  | publish {beginNs endNs record} (hidle : s.announcing = none) :
    RingStep s (.publish beginNs endNs record) (s.publish beginNs endNs record)
  | announce {a send dropUrgent urgent} (hattempt : s.announcing = some a)
      (hallowed : announceAllowed s.bridge a send dropUrgent urgent = true) :
    RingStep s (.announce send dropUrgent urgent)
      (s.announceAttempt a send dropUrgent urgent)
  | deliver {ack rest nowNs urgent} (hchannel : s.channel = ack :: rest)
      (hallowed : s.callAllowed urgent = true) :
    RingStep s (.deliver nowNs urgent) (s.deliver ack rest nowNs urgent)
  | gone {send urgent} (hallowed : s.callAllowed urgent = true) :
    RingStep s (.gone send urgent) (s.loseDevice send urgent)
  | reconnect {fd send urgent} (hallowed : s.callAllowed urgent = true) :
    RingStep s (.reconnect fd send urgent) (s.reconnect fd send urgent)
  | readUrgent (hpolls : s.ingressPolls = true) :
    RingStep s .readUrgent s.readUrgent
  | lockUrgent (hsignalled : s.signalled = true) (hfree : s.drain = none) :
    RingStep s .lockUrgent s.lockUrgent
  | lockFrame {reason acknowledgeNow} (hfree : s.drain = none) :
    RingStep s (.lockFrame reason acknowledgeNow)
      (s.lock .frame reason acknowledgeNow)
  | load {d available} (hdrain : s.drain = some d) (hphase : d.phase = .load)
      (havailable : snapshotAvailable s.capacity s.head s.client.localTail
        drainBatchSize = .ok available) :
    RingStep s .load (s.loadHead d available)
  | copy {d available} (hdrain : s.drain = some d)
      (hphase : d.phase = .copy available) :
    RingStep s .copy (s.copyBatch d available)
  | account {d batch nowNs} (hdrain : s.drain = some d)
      (hphase : d.phase = .account batch) :
    RingStep s (.account nowNs) (s.account d batch nowNs)
  | push {d batch client} (hdrain : s.drain = some d)
      (hphase : d.phase = .push batch)
      (hpush : pushPending s.client batch = some client) :
    RingStep s .push (s.pushBatch d batch client)
  | count {d batch} (hdrain : s.drain = some d) (hphase : d.phase = .count batch) :
    RingStep s .count (s.countBatch d batch)
  | finish {d send t} (hdrain : s.drain = some d) (hphase : d.phase = .finish)
      (hfinish : s.finish d send = some t) : RingStep s (.finish send) t
  | takePending (hruns : s.frameRuns = true) :
    RingStep s .takePending s.takePending
  | frameAck {send t} (hfree : s.drain = none) (hack : s.frameAck send = some t) :
    RingStep s (.frameAck send) t

/-- What a step of a drain can do. -/
private theorem drainStep_cases {s t : RingSystem} {d : RingDrain}
    {label : RingLabel} (hdrain : s.drain = some d)
    (h : drainStep s d label = some t) : RingStep s label t := by
  cases label with
  | load =>
    unfold drainStep at h
    dsimp only at h
    split at h
    · rename_i hphase
      split at h
      · cases h
      · rename_i available havailable
        obtain rfl := Option.some.inj h
        exact .load hdrain hphase havailable
    · cases h
  | copy =>
    unfold drainStep at h
    dsimp only at h
    split at h
    · rename_i available hphase
      obtain rfl := Option.some.inj h
      exact .copy hdrain hphase
    · cases h
  | account nowNs =>
    unfold drainStep at h
    dsimp only at h
    split at h
    · rename_i batch hphase
      obtain rfl := Option.some.inj h
      exact .account hdrain hphase
    · cases h
  | push =>
    unfold drainStep at h
    dsimp only at h
    split at h
    · rename_i batch hphase
      obtain ⟨client, hpush, rfl⟩ := Option.map_eq_some_iff.1 h
      exact .push hdrain hphase hpush
    · cases h
  | count =>
    unfold drainStep at h
    dsimp only at h
    split at h
    · rename_i batch hphase
      obtain rfl := Option.some.inj h
      exact .count hdrain hphase
    · cases h
  | finish send =>
    unfold drainStep at h
    dsimp only at h
    split at h
    · rename_i hphase
      exact .finish hdrain hphase h
    · cases h
  | _ => cases h

theorem ringStep_cases {s t : RingSystem} {label : RingLabel}
    (h : ringMachine.step s label = some t) : RingStep s label t := by
  have h : ringStep s label = some t := h
  -- The labels of a drain are enabled in a drain only.
  have hinside : ∀ {label : RingLabel}, (match s.drain with
      | some d => drainStep s d label
      | none => none) = some t → RingStep s label t := by
    intro label hlabel
    cases hdrain : s.drain with
    | none =>
      rw [hdrain] at hlabel
      cases hlabel
    | some d =>
      rw [hdrain] at hlabel
      exact drainStep_cases hdrain hlabel
  cases label with
  | publish beginNs endNs record =>
    simp only [ringStep] at h
    split at h
    · rename_i hidle
      obtain rfl := Option.some.inj h
      exact .publish (Option.isNone_iff_eq_none.1 hidle)
    · cases h
  | announce send dropUrgent urgent =>
    simp only [ringStep] at h
    split at h
    · rename_i a hattempt
      split at h
      · rename_i hallowed
        obtain rfl := Option.some.inj h
        exact .announce hattempt hallowed
      · cases h
    · cases h
  | deliver nowNs urgent =>
    simp only [ringStep] at h
    split at h
    · rename_i ack rest hchannel
      split at h
      · rename_i hallowed
        obtain rfl := Option.some.inj h
        exact .deliver hchannel hallowed
      · cases h
    · cases h
  | gone send urgent =>
    simp only [ringStep] at h
    split at h
    · obtain rfl := Option.some.inj h
      exact .gone ‹_›
    · cases h
  | reconnect fd send urgent =>
    simp only [ringStep] at h
    split at h
    · obtain rfl := Option.some.inj h
      exact .reconnect ‹_›
    · cases h
  | readUrgent =>
    simp only [ringStep] at h
    split at h
    · rename_i hready
      rw [Bool.and_eq_true] at hready
      obtain rfl := Option.some.inj h
      exact .readUrgent hready.1
    · cases h
  | lockUrgent =>
    simp only [ringStep] at h
    split at h
    · rename_i hready
      rw [Bool.and_eq_true] at hready
      obtain rfl := Option.some.inj h
      exact .lockUrgent hready.1 (Option.isNone_iff_eq_none.1 hready.2)
    · cases h
  | lockFrame reason acknowledgeNow =>
    simp only [ringStep] at h
    split at h
    · rename_i hfree
      obtain rfl := Option.some.inj h
      exact .lockFrame (Option.isNone_iff_eq_none.1 hfree)
    · cases h
  | takePending =>
    simp only [ringStep] at h
    split at h
    · obtain rfl := Option.some.inj h
      exact .takePending ‹_›
    · cases h
  | frameAck send =>
    simp only [ringStep] at h
    split at h
    · rename_i hfree
      exact .frameAck (Option.isNone_iff_eq_none.1 hfree) h
    · cases h
  | load | copy | account nowNs | push | count | finish send => exact hinside h

/-! ## Uninterrupted rounds -/

/-- The steps of a round, run at once, are `drainRound`. -/
theorem run_round {s : RingSystem} {d : RingDrain} {nowNs available : UInt64}
    {c' : Client} (hdrain : s.drain = some d) (hphase : d.phase = .load)
    (havailable : snapshotAvailable s.capacity s.head s.client.localTail
      drainBatchSize = .ok available)
    (hround : drainRound s.client s.bridge.ring d.reason false nowNs = some c') :
    ∃ labels t, ringMachine.run s (.load :: labels) = some t ∧ t.client = c' := by
  have hload : ringMachine.step s .load = some (s.loadHead d available) := by
    simp only [ringMachine, ringStep, hdrain]
    unfold drainStep
    simp only [hphase, havailable]
  by_cases hzero : available = 0
  · subst hzero
    refine ⟨[], _, Machine.run_cons.2 ⟨_, hload, rfl⟩, ?_⟩
    exact (drainRound_empty havailable hround).symm
  · obtain ⟨pushed, hpush, rfl⟩ := drainRound_eq havailable hround
    let batch := copySlots s.bridge.ring s.client.localTail available
    let d₁ : RingDrain := { d with phase := .copy available, loaded := s.head }
    let s₁ := s.loadHead d available
    have hdrain₁ : s₁.drain = some d₁ := by
      show some { d with phase := if available == 0 then _ else _, loaded := _ } = _
      rw [if_neg (by simpa using hzero)]
    let d₂ : RingDrain :=
      { d₁ with phase := .account batch, total := d₁.total + available }
    let s₂ := s₁.copyBatch d₁ available
    have hcopy : ringMachine.step s₁ .copy = some s₂ := by
      simp only [ringMachine, ringStep, hdrain₁]
      rfl
    let d₃ : RingDrain := { d₂ with phase := .push batch }
    let s₃ := s₂.account d₂ batch nowNs
    let d₄ : RingDrain := { d₃ with phase := .count batch }
    let s₄ := s₃.pushBatch d₃ batch pushed
    have hpushed : ringMachine.step s₃ .push = some s₄ := by
      show (pushPending s₃.client batch).map (s₃.pushBatch d₃ batch) = some s₄
      have hpush : pushPending s₃.client batch = some pushed := hpush
      rw [hpush]
      rfl
    refine ⟨[.copy, .account nowNs, .push, .count], s₄.countBatch d₄ batch, ?_, rfl⟩
    refine Machine.run_cons.2 ⟨s₁, hload, Machine.run_cons.2 ⟨s₂, hcopy, ?_⟩⟩
    exact Machine.run_cons.2 ⟨s₃, rfl, Machine.run_cons.2 ⟨s₄, hpushed,
      Machine.run_cons.2 ⟨_, rfl, rfl⟩⟩⟩

end Hfior
