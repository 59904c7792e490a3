import Hfior.Bridge.Safety
import Hfior.Input.Ledgers

/-!
# The accounting of the eager path

A client in an eager mode gets every accepted record on the socket as well.
`EagerSpan` runs the bridge from any state and notes which accepted records
were published to such a client, with the outcome of their send, and which
messages the socket took.

`send_eager_record` counts a message that the socket took and one that found
it full.  Any other error is a warning at most, and the record is neither
delivered nor counted.  `eager_accounted_iff` is the exact condition.
-/

namespace Hfior

/-! ## The counters -/

/-- The counters of the eager path, in `bridge.stats` and in the ring. -/
structure EagerCounters where
  sent : UInt64
  ringSent : UInt64
  drops : UInt64
  ringDrops : UInt64
deriving DecidableEq, Repr

def Bridge.eagerCounters (b : Bridge) : EagerCounters where
  sent := b.stats.eagerPacketsSent
  ringSent := b.ring.stats.eagerPacketsSent
  drops := b.stats.eagerSendDrops
  ringDrops := b.ring.producer.eagerSendDrops

/-- More messages in both ledgers. -/
def EagerCounters.add (c : EagerCounters) (sent drops : Nat) : EagerCounters where
  sent := c.sent + UInt64.ofNat sent
  ringSent := c.ringSent + UInt64.ofNat sent
  drops := c.drops + UInt64.ofNat drops
  ringDrops := c.ringDrops + UInt64.ofNat drops

@[simp] theorem EagerCounters.add_zero (c : EagerCounters) : c.add 0 0 = c := by
  simp [EagerCounters.add]

theorem EagerCounters.add_add (c : EagerCounters) (sent drops sent' drops' : Nat) :
    (c.add sent drops).add sent' drops' = c.add (sent + sent') (drops + drops') := by
  simp [EagerCounters.add, UInt64.add_assoc]

/-- The increases of the four counters. -/
theorem EagerCounters.add_increase {c c' : EagerCounters} {sent drops : Nat}
    (h : c' = c.add sent drops) :
    c'.sent - c.sent = UInt64.ofNat sent ∧ c'.ringSent - c.ringSent = UInt64.ofNat sent ∧
      c'.drops - c.drops = UInt64.ofNat drops ∧
        c'.ringDrops - c.ringDrops = UInt64.ofNat drops := by
  have hadd : ∀ m n : UInt64, m + n - m = n := by
    intro m n
    rw [UInt64.add_comm, UInt64.add_sub_cancel]
  rw [h]
  exact ⟨hadd _ _, hadd _ _, hadd _ _, hadd _ _⟩

/-- The client is connected, and in an eager mode. -/
def Bridge.servesEager (b : Bridge) : Bool :=
  !(b.clientFd < 0 || b.mode == HFIOR_MODE_HFIOR)

namespace IoResult

/-- The socket was full. -/
def refused : IoResult → Bool
  | .failed .EAGAIN | .failed .ENOBUFS => true
  | _ => false

/-- The outcomes that `send_eager_record` counts. -/
def counted (send : IoResult) : Bool := send == .done || send.refused

/-- A send is delivered or refused, and not both. -/
theorem counted_split (send : IoResult) :
    (if send == .done then 1 else 0) + (if send.refused then 1 else 0) =
      if send.counted then 1 else 0 := by
  cases send with
  | done => rfl
  | failed errno => cases errno <;> rfl

end IoResult

/-! ## What the functions count -/

section
variable (b : Bridge) (record : Record) (send urgent : IoResult)

@[simp] theorem writeUrgent_eagerCounters :
    (writeUrgent b urgent).eagerCounters = b.eagerCounters := by
  cases urgent <;> rfl

/-- What one eager send counts and delivers. -/
theorem sendEagerRecord_counters (h : b.servesEager = true) :
    (sendEagerRecord b record send urgent).1.eagerCounters =
        b.eagerCounters.add (if send == .done then 1 else 0) (if send.refused then 1 else 0) ∧
      (sendEagerRecord b record send urgent).2.map EagerRecordMessage.record =
        if send == .done then some record else none := by
  have hopen : ¬ (decide (b.clientFd < 0) || b.mode == HFIOR_MODE_HFIOR) = true := by
    simpa [Bridge.servesEager] using h
  have hdrop : (writeUrgent (countEagerDrop b) urgent).eagerCounters =
      b.eagerCounters.add 0 1 := by
    rw [writeUrgent_eagerCounters]
    simp [EagerCounters.add, Bridge.eagerCounters, countEagerDrop]
  unfold sendEagerRecord
  rw [if_neg hopen]
  cases send with
  | done => exact ⟨by simp [EagerCounters.add, Bridge.eagerCounters, countEagerSent,
      IoResult.refused], rfl⟩
  | failed errno =>
    cases errno with
    | EAGAIN | ENOBUFS => exact ⟨hdrop, rfl⟩
    | _ => exact ⟨(EagerCounters.add_zero _).symm, rfl⟩

/-- Without a client in an eager mode nothing is sent. -/
theorem sendEagerRecord_idle (h : b.servesEager = false) :
    sendEagerRecord b record send urgent = (b, none) := by
  rw [Bridge.servesEager, Bool.not_eq_false'] at h
  unfold sendEagerRecord
  rw [if_pos h]

theorem publishAttempt_eager (beginNs endNs : UInt64) :
    (publishAttempt b beginNs endNs record).2.eagerCounters = b.eagerCounters ∧
      (publishAttempt b beginNs endNs record).2.servesEager = b.servesEager := by
  cases hpublished : (publishAttempt b beginNs endNs record).1.published with
  | true =>
    obtain ⟨trace, hframe⟩ := publishAttempt_of_published b beginNs endNs record hpublished
    rw [hframe]
    exact ⟨rfl, rfl⟩
  | false =>
    obtain ⟨trace, hframe⟩ := publishAttempt_of_dropped b beginNs endNs record hpublished
    rw [hframe]
    exact ⟨rfl, rfl⟩

theorem announceUrgent_eagerCounters (a : Attempt) :
    (announceUrgent b a urgent).eagerCounters = b.eagerCounters := by
  unfold announceUrgent
  split
  · rfl
  · exact writeUrgent_eagerCounters b urgent

/-- Whether an attempt goes to a client in an eager mode. -/
def Attempt.goesEager (a : Attempt) (b : Bridge) : Bool := a.published && b.servesEager

/-- An announcement counts and delivers what its eager send does. -/
theorem announce_eager (a : Attempt) (dropUrgent : IoResult) :
    (announce b a send dropUrgent urgent).1.eagerCounters = b.eagerCounters.add
        (if a.goesEager b && send == .done then 1 else 0)
        (if a.goesEager b && send.refused then 1 else 0) ∧
      (announce b a send dropUrgent urgent).2.map EagerRecordMessage.record =
        if a.goesEager b && send == .done then some a.record else none := by
  obtain ⟨sent, published⟩ := a
  simp only [announce, announceUrgent_eagerCounters, Attempt.goesEager]
  cases published with
  | false => simp
  | true =>
    by_cases hclient : b.servesEager = true
    · simpa [hclient] using sendEagerRecord_counters b sent send dropUrgent hclient
    · rw [Bool.not_eq_true] at hclient
      simp [hclient, sendEagerRecord_idle b sent send dropUrgent hclient]

/-- So does a publication. -/
theorem publishRecord_eager (env : PublishEnv) :
    (publishRecord b env record).bridge.eagerCounters = b.eagerCounters.add
        (if (publishRecord b env record).attempt.goesEager b && env.send == .done then 1 else 0)
        (if (publishRecord b env record).attempt.goesEager b && env.send.refused then 1
          else 0) ∧
      (publishRecord b env record).eager.map EagerRecordMessage.record =
        if (publishRecord b env record).attempt.goesEager b && env.send == .done then
          some (publishRecord b env record).attempt.record
        else none := by
  obtain ⟨hattempt, hserves⟩ := publishAttempt_eager b record env.beginNs env.endNs
  have hannounce := announce_eager (publishAttempt b env.beginNs env.endNs record).2 env.send
    env.urgent (publishAttempt b env.beginNs env.endNs record).1 env.dropUrgent
  rw [Attempt.goesEager, hserves, hattempt] at hannounce
  exact hannounce

theorem handleControlMessage_eagerCounters (received : Except Errno (List UInt8))
    (nowNs : UInt64) : (handleControlMessage b received nowNs urgent).bridge.eagerCounters =
      b.eagerCounters := by
  unfold handleControlMessage
  split
  · rfl
  · rfl
  · rfl
  · dsimp only
    split
    · rfl
    split
    · rfl
    unfold dispatchControl
    dsimp only
    split
    · unfold handleSetMode
      split <;> rfl
    split
    · unfold handleAck
      split
      · rfl
      · exact writeUrgent_eagerCounters _ urgent
    split
    · rfl
    split <;> rfl

theorem sendDeviceState_eagerCounters (flags : UInt16) :
    (sendDeviceState b flags send urgent).1.eagerCounters = b.eagerCounters := by
  unfold sendDeviceState
  split
  · rfl
  · exact writeUrgent_eagerCounters b urgent

theorem tryReconnectDevice_eagerCounters (fd : Int32) :
    (tryReconnectDevice b fd send urgent).2.1.eagerCounters = b.eagerCounters := by
  unfold tryReconnectDevice openInputDevice
  by_cases hdevice : (!b.config.devicePath) = true
  · rw [if_pos hdevice]
  · rw [if_neg hdevice, if_neg hdevice]
    by_cases hfd : fd < 0
    · rw [if_pos hfd]
      rfl
    · rw [if_neg hfd]
      exact sendDeviceState_eagerCounters _ send urgent _

end

/-! ## A span of calls -/

/-- The bridge in a span of calls. -/
structure EagerSpan where
  serving : Serving
  /-- The accepted records that were published to a client in an eager mode,
  with the outcome of their send. -/
  eager : List (Record × IoResult)
  /-- The messages that the socket took. -/
  delivered : List EagerRecordMessage

namespace EagerSpan

def bridge (s : EagerSpan) : Bridge := s.serving.bridge

/-- The beginning of a span. -/
def initial (b : Bridge) : EagerSpan := ⟨⟨b, []⟩, [], []⟩

/-- A publication, with its entries. -/
def publish (s : EagerSpan) (env : PublishEnv) (record : Record) : EagerSpan :=
  let p := publishRecord s.bridge env record
  { serving := s.serving.call (.publish env record)
    eager := s.eager ++ if p.attempt.goesEager s.bridge then [(p.attempt.record, env.send)] else []
    delivered := s.delivered ++ p.eager.toList }

/-- The span behind a call. -/
def call (s : EagerSpan) : BridgeCall → EagerSpan
  | .publish env record => s.publish env record
  | other => { s with serving := s.serving.call other }

/-- The records that the socket took. -/
def deliveredRecords (s : EagerSpan) : List Record := s.delivered.map EagerRecordMessage.record

/-- The records of the span that went to a client in an eager mode. -/
def eagerRecords (s : EagerSpan) : List Record := s.eager.map Prod.fst

end EagerSpan

/-- The bridge, where every call may come next. -/
def spanMachine : Machine EagerSpan BridgeCall where
  step s call := some (s.call call)

namespace EagerSpan

variable {b : Bridge} {s : EagerSpan}

/-- The ledgers of a span that began at `b`. -/
structure SpanInv (b : Bridge) (s : EagerSpan) : Prop where
  counters : s.bridge.eagerCounters = b.eagerCounters.add
    (s.eager.countP fun p => p.2 == .done) (s.eager.countP fun p => p.2.refused)
  delivered : s.deliveredRecords = (s.eager.filter fun p => p.2 == .done).map Prod.fst
  history : s.eagerRecords.Sublist s.serving.accepted

namespace SpanInv

theorem initial (b : Bridge) : SpanInv b (.initial b) :=
  ⟨(EagerCounters.add_zero _).symm, rfl, .slnil⟩

/-- A call that publishes nothing. -/
theorem frame (h : SpanInv b s) {b' : Bridge}
    (hcounters : b'.eagerCounters = s.bridge.eagerCounters) :
    SpanInv b { s with serving := { s.serving with bridge := b' } } :=
  ⟨hcounters.trans h.counters, h.delivered, h.history⟩

/-- What a publication adds to the ledgers, by its send. -/
theorem publish (h : SpanInv b s) (env : PublishEnv) (record : Record) :
    SpanInv b (s.publish env record) := by
  obtain ⟨hcounters, hdelivered⟩ := publishRecord_eager s.bridge record env
  generalize hp : publishRecord s.bridge env record = p at hcounters hdelivered
  have hbridge : (s.publish env record).bridge = p.bridge := congrArg Publication.bridge hp
  have haccepted : (s.publish env record).serving.accepted =
      acceptedRecords (s.serving.attempts ++ [p.attempt]) := by
    rw [← hp]
    rfl
  have heager : (s.publish env record).eager =
      s.eager ++ if p.attempt.goesEager s.bridge then [(p.attempt.record, env.send)] else [] := by
    rw [← hp]
    rfl
  have hsent : (s.publish env record).deliveredRecords =
      s.deliveredRecords ++ (p.eager.map EagerRecordMessage.record).toList := by
    show (s.delivered ++ (publishRecord s.bridge env record).eager.toList).map _ = _
    rw [hp, List.map_append]
    cases p.eager <;> rfl
  refine ⟨?_, ?_, ?_⟩
  · rw [hbridge, hcounters, h.counters, EagerCounters.add_add, heager, List.countP_append,
      List.countP_append]
    cases hgoes : p.attempt.goesEager s.bridge <;> simp [List.countP_singleton]
  · rw [hsent, hdelivered, h.delivered, heager, List.filter_append, List.map_append]
    cases hgoes : p.attempt.goesEager s.bridge with
    | false => simp
    | true => cases hdone : env.send == .done <;> simp [hdone]
  · rw [haccepted, EagerSpan.eagerRecords, heager, List.map_append]
    cases hpublished : p.attempt.published with
    | false =>
      rw [acceptedRecords_append_of_dropped hpublished]
      have hhistory : (s.eager.map Prod.fst).Sublist (acceptedRecords s.serving.attempts) :=
        h.history
      simpa [Attempt.goesEager, hpublished] using hhistory
    | true =>
      rw [acceptedRecords_append_of_published hpublished]
      refine h.history.append ?_
      cases hgoes : p.attempt.goesEager s.bridge <;> simp

/-- Every call keeps the ledgers. -/
theorem call (h : SpanInv b s) (call : BridgeCall) : SpanInv b (s.call call) := by
  cases call with
  | publish env record => exact h.publish env record
  | control received nowNs urgent =>
    exact h.frame (handleControlMessage_eagerCounters s.bridge urgent received nowNs)
  | gone send urgent =>
    exact h.frame (sendDeviceState_eagerCounters (closeInputDevice s.bridge) send urgent _)
  | reconnect fd send urgent =>
    exact h.frame (tryReconnectDevice_eagerCounters s.bridge send urgent fd)

/-- The delivered and the refused records are the counted ones. -/
theorem countP_counted (eager : List (Record × IoResult)) :
    (eager.countP fun p => p.2 == .done) + (eager.countP fun p => p.2.refused) =
      eager.countP fun p => p.2.counted := by
  induction eager with
  | nil => rfl
  | cons p eager ih =>
    simp only [List.countP_cons]
    have hp := p.2.counted_split
    omega

end SpanInv

/-- Every record that was published to a client in an eager mode is
accounted for, in a span that began at `b`. -/
structure Accounted (b : Bridge) (s : EagerSpan) : Prop where
  number : s.eagerRecords.length = s.deliveredRecords.length +
    (s.bridge.eagerCounters.drops - b.eagerCounters.drops).toNat
  inOrder : s.deliveredRecords.Sublist s.eagerRecords
  ringDrops : s.bridge.eagerCounters.ringDrops - b.eagerCounters.ringDrops =
    s.bridge.eagerCounters.drops - b.eagerCounters.drops
  sent : s.bridge.eagerCounters.sent - b.eagerCounters.sent =
    UInt64.ofNat s.deliveredRecords.length
  ringSent : s.bridge.eagerCounters.ringSent - b.eagerCounters.ringSent =
    s.bridge.eagerCounters.sent - b.eagerCounters.sent
  /-- Without a drop the client has got the ring history, if it was in an
  eager mode at every record. -/
  identical : s.bridge.eagerCounters.drops = b.eagerCounters.drops →
    s.deliveredRecords = s.eagerRecords ∧
      (s.eagerRecords.length = s.serving.accepted.length →
        s.deliveredRecords = s.serving.accepted)

end EagerSpan

open EagerSpan in
/-- In every span of calls, the records of a client in an eager mode are
accounted for if and only if every send was taken by the socket or found it
full. -/
theorem eager_accounted_iff {b : Bridge} {calls : List BridgeCall} {s : EagerSpan}
    (hrun : spanMachine.run (.initial b) calls = some s) (hlt : s.eager.length < 2 ^ 64) :
    Accounted b s ↔ ∀ p ∈ s.eager, p.2.counted = true := by
  have hinv : SpanInv b s := by
    refine Machine.run_invariant (SpanInv b) ?_ (SpanInv.initial b) hrun
    intro u call v hu hstep
    obtain rfl := Option.some.inj hstep
    exact hu.call call
  obtain ⟨hsent, hringSent, hdrops, hringDrops⟩ := EagerCounters.add_increase hinv.counters
  have hsplit := SpanInv.countP_counted s.eager
  have hall : (s.eager.countP fun p => p.2.counted) ≤ s.eager.length := List.countP_le_length
  have hlength : s.deliveredRecords.length = s.eager.countP fun p => p.2 == .done := by
    rw [hinv.delivered, List.length_map, List.countP_eq_length_filter]
  have heager : s.eagerRecords.length = s.eager.length := List.length_map _
  have hrefused : (s.bridge.eagerCounters.drops - b.eagerCounters.drops).toNat =
      s.eager.countP fun p => p.2.refused := by
    rw [hdrops, UInt64.toNat_ofNat', Nat.mod_eq_of_lt (by omega)]
  constructor
  · intro h
    have hnumber := h.number
    rw [heager, hlength, hrefused, hsplit] at hnumber
    exact List.countP_eq_length.1 hnumber.symm
  · intro h
    have hcounted := List.countP_eq_length.2 h
    have hsublist : s.deliveredRecords.Sublist s.eagerRecords := by
      rw [hinv.delivered]
      exact List.filter_sublist.map _
    refine ⟨?_, hsublist, hringDrops.trans hdrops.symm, ?_, hringSent.trans hsent.symm, ?_⟩
    · rw [heager, hlength, hrefused]
      omega
    · rw [hlength]
      exact hsent
    · intro hsame
      rw [hsame, UInt64.sub_self, UInt64.toNat_zero] at hrefused
      have hequal : s.deliveredRecords = s.eagerRecords := by
        apply hsublist.eq_of_length
        rw [heager, hlength]
        omega
      refine ⟨hequal, fun hwhole => ?_⟩
      rw [hequal]
      exact hinv.history.eq_of_length hwhole

/-- A bridge whose client is in an eager mode. -/
def eagerBridge : Bridge := { freshBridge 64 with mode := HFIOR_MODE_EAGER_THREAD }

/-- A publication whose eager send has this outcome. -/
def eagerCall (send : IoResult) : BridgeCall :=
  .publish { quietEnv with send := send } (blankRecord 0 HFIOR_RECORD_MOTION)

/-- A record that is taken, and one that finds the socket full. -/
theorem eager_accounted_full :
    ∃ s, spanMachine.run (.initial eagerBridge)
        [eagerCall .done, eagerCall (.failed .EAGAIN)] = some s ∧
      s.eager.length = 2 ∧ EagerSpan.Accounted eagerBridge s := by
  have hrun : spanMachine.run (.initial eagerBridge)
      [eagerCall .done, eagerCall (.failed .EAGAIN)] = some _ := rfl
  exact ⟨_, hrun, rfl, (eager_accounted_iff hrun (by decide)).2 (by decide)⟩

/-- A send that fails with ENOMEM: the record is in the ring, and the client
has not got it, and nobody has counted a drop. -/
theorem eager_lost_unaccounted : ¬ ∀ calls s,
    spanMachine.run (.initial eagerBridge) calls = some s →
      (∀ p ∈ s.eager, p.2 ≠ .failed .EPIPE ∧ p.2 ≠ .failed .ECONNRESET) →
        EagerSpan.Accounted eagerBridge s := by
  intro h
  have hrun : spanMachine.run (.initial eagerBridge) [eagerCall (.failed (.other 12))] =
      some _ := rfl
  have haccounted := h _ _ hrun (by decide)
  exact absurd haccounted.number (by decide)

end Hfior
