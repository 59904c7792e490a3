import Hfior.Client.Start
import Hfior.RingClient.System

/-!
# The invariant of the ring client

Behind a head load a batch passes through the local tail, the accounting,
the queue and the counter, one step after the other.  So each of these has
seen the records up to the local tail, less the batch that is still on its
way (`unaccounted`, `unpushed`, `uncounted`).

`RingInv` says this, with the order of the positions and what the last head
load allows, and `ringInv_run` is its induction over a run.
-/

namespace Hfior

namespace DrainPhase

/-- The batch that `account_sequences` has not seen. -/
def unaccounted : DrainPhase → List Record
  | .account batch => batch
  | _ => []

/-- The batch that is not in the queue. -/
def unpushed : DrainPhase → List Record
  | .account batch | .push batch => batch
  | _ => []

/-- The batch that `ring_records` does not count. -/
def uncounted : DrainPhase → List Record
  | .account batch | .push batch | .count batch => batch
  | _ => []

/-- What the last head load says about the local tail.  A batch that is not
full ends at the loaded head, and then the drain ends. -/
def Bounds (loaded localTail : Nat) : DrainPhase → Prop
  | .load => True
  | .copy available =>
    localTail + available.toNat ≤ loaded ∧
    available.toNat ≤ drainBatchSize.toNat ∧
    (available.toNat < drainBatchSize.toNat → localTail + available.toNat = loaded)
  | .account batch | .push batch | .count batch =>
    batch.length < drainBatchSize.toNat → loaded ≤ localTail
  | .finish => loaded ≤ localTail

theorem unaccounted_of_uncounted {phase : DrainPhase}
    (h : phase.uncounted = []) : phase.unaccounted = [] := by
  cases phase with
  | account batch => exact h
  | _ => rfl

theorem unpushed_of_uncounted {phase : DrainPhase}
    (h : phase.uncounted = []) : phase.unpushed = [] := by
  cases phase with
  | account batch | push batch => exact h
  | _ => rfl

end DrainPhase

namespace RingSystem

variable {s t : RingSystem} {d : RingDrain}

/-- The phase of the drain in progress, or the end of the last one. -/
def phase (s : RingSystem) : DrainPhase :=
  match s.drain with
  | some d => d.phase
  | none => .finish

theorem phase_of_drain (h : s.drain = some d) : s.phase = d.phase := by
  rw [phase, h]

theorem phase_of_free (h : s.drain = none) : s.phase = .finish := by
  rw [phase, h]

/-- The accepted records from the first position of the client up to its
local tail. -/
def drained (s : RingSystem) : List Record :=
  slice s.accepted s.start s.client.localTail.toNat

end RingSystem

/-- What the client knows of the accepted records `accepted`. -/
structure ClientInv (accepted : List Record) (s : RingSystem) : Prop where
  acked_le : s.client.lastAckedTail.toNat ≤ s.client.localTail.toNat
  local_le : s.client.localTail.toNat ≤ accepted.length
  start_le : s.start ≤ s.client.localTail.toNat
  accounted : s.accounted ++ s.phase.unaccounted =
    slice accepted s.start s.client.localTail.toNat
  pushed : s.taken.flatten ++ s.client.pending.records ++ s.phase.unpushed =
    slice accepted s.start s.client.localTail.toNat
  counted : s.client.stats.ringRecords.toNat + s.phase.uncounted.length =
    s.client.localTail.toNat - s.start
  ledger : s.client.stats.ledger.Of s.accounted
  drain : ∀ d, s.drain = some d → d.loaded.toNat ≤ accepted.length ∧
    d.phase.Bounds d.loaded.toNat s.client.localTail.toNat

/-- The invariant of the machine. -/
structure RingInv (s : RingSystem) : Prop where
  ring : Represents s.bridge.ring s.accepted
  numbered : Numbered s.bridge.ring s.attempts
  announcing : ∀ a, s.announcing = some a → s.attempts.getLast? = some a
  acks : AcksInOrder s.tail.toNat s.channel s.client.lastAckedTail.toNat
  client : ClientInv s.accepted s

/-! ## Steps of the bridge -/

/-- What the client knows stays true when more records are accepted. -/
theorem ClientInv.extend {accepted accepted' : List Record} {s t : RingSystem}
    (h : ClientInv accepted s) (hgrow : accepted <+: accepted')
    (hclient : t.client = s.client) (hstart : t.start = s.start)
    (hdrain : t.drain = s.drain) (htaken : t.taken = s.taken)
    (haccounted : t.accounted = s.accounted) : ClientInv accepted' t := by
  have hphase : t.phase = s.phase := by
    rw [RingSystem.phase, RingSystem.phase, hdrain]
  have hlength := hgrow.length_le
  obtain ⟨suffix, rfl⟩ := hgrow
  have hslice : slice (accepted ++ suffix) s.start s.client.localTail.toNat =
      slice accepted s.start s.client.localTail.toNat :=
    slice_append_left h.local_le
  constructor
  · rw [hclient]
    exact h.acked_le
  · rw [hclient]
    exact h.local_le.trans hlength
  · rw [hclient, hstart]
    exact h.start_le
  · rw [hclient, hstart, haccounted, hphase, hslice]
    exact h.accounted
  · rw [hclient, hstart, htaken, hphase, hslice]
    exact h.pushed
  · rw [hclient, hstart, hphase]
    exact h.counted
  · rw [hclient, haccounted]
    exact h.ledger
  · intro d hd
    rw [hdrain] at hd
    rw [hclient]
    exact ⟨(h.drain d hd).1.trans hlength, (h.drain d hd).2⟩

/-- Two states of the client that differ in counters, traces and the
acknowledged tail only. -/
structure SameProgress (c c' : Client) : Prop where
  localTail : c'.localTail = c.localTail
  pending : c'.pending = c.pending
  ringRecords : c'.stats.ringRecords = c.stats.ringRecords
  ledger : c'.stats.ledger = c.stats.ledger

/-- A step between two batches, which moves no record. -/
theorem ClientInv.between {accepted : List Record} {s t : RingSystem}
    (h : ClientInv accepted s) (hs : s.phase.uncounted = [])
    (ht : t.phase.uncounted = []) (hclient : SameProgress s.client t.client)
    (hstart : t.start = s.start) (htaken : t.taken = s.taken)
    (haccounted : t.accounted = s.accounted)
    (hacked : t.client.lastAckedTail.toNat ≤ s.client.localTail.toNat)
    (hdrain : ∀ d, t.drain = some d → d.loaded.toNat ≤ accepted.length ∧
      d.phase.Bounds d.loaded.toNat s.client.localTail.toNat) :
    ClientInv accepted t := by
  obtain ⟨hlocal, hpending, hrecords, hledger⟩ := hclient
  constructor
  · rw [hlocal]
    exact hacked
  · rw [hlocal]
    exact h.local_le
  · rw [hlocal, hstart]
    exact h.start_le
  · rw [hlocal, hstart, haccounted, DrainPhase.unaccounted_of_uncounted ht,
      ← DrainPhase.unaccounted_of_uncounted hs]
    exact h.accounted
  · rw [hlocal, hstart, htaken, hpending, DrainPhase.unpushed_of_uncounted ht,
      ← DrainPhase.unpushed_of_uncounted hs]
    exact h.pushed
  · rw [hlocal, hstart, hrecords, ht, ← hs]
    exact h.counted
  · rw [haccounted, hledger]
    exact h.ledger
  · rw [hlocal]
    exact hdrain

/-- What an ACK call does to the client, and the message that it sent. -/
structure AckSent (c c' : Client) (message : Option AckMessage) : Prop where
  frame : SameProgress c c'
  acked : (message = none ∧ c'.lastAckedTail = c.lastAckedTail) ∨
    (message = some ⟨c.generation, c.localTail⟩ ∧ c'.lastAckedTail = c.localTail)

theorem ackSent_of_sendAckIfNeeded {c c' : Client} {send : IoResult}
    {message : Option AckMessage}
    (h : sendAckIfNeeded c send = some (c', message)) : AckSent c c' message := by
  rcases sendAckIfNeeded_cases h with ⟨-, rfl, rfl⟩ | ⟨rfl, n, rfl⟩
  · exact ⟨⟨rfl, rfl, rfl, rfl⟩, .inl ⟨rfl, rfl⟩⟩
  · exact ⟨⟨rfl, rfl, rfl, rfl⟩, .inr ⟨rfl, rfl⟩⟩

namespace RingSystem

variable {s t : RingSystem} {d : RingDrain} {send : IoResult}

/-- The state behind an ACK call, with the mutex free. -/
def withAck (s : RingSystem) (client : Client) (message : Option AckMessage) :
    RingSystem :=
  { s with client := client, drain := none, channel := s.channel ++ message.toList }

theorem finish_withAck (h : s.finish d send = some t) :
    ∃ client message, AckSent s.client client message ∧
      t = s.withAck client message := by
  obtain ⟨n, hcount⟩ := countNonempty_frame s.client d.total
  simp only [finish, hcount] at h
  split at h
  · obtain ⟨⟨client, message⟩, hsend, ht⟩ := Option.bind_eq_some_iff.1 h
    have hsent := ackSent_of_sendAckIfNeeded hsend
    have hframe : SameProgress s.client client :=
      ⟨hsent.frame.localTail, hsent.frame.pending, hsent.frame.ringRecords,
        hsent.frame.ledger⟩
    exact ⟨client, message, ⟨hframe, hsent.acked⟩, (Option.some.inj ht).symm⟩
  · refine ⟨{ s.client with stats.nonemptyRingChecks := n }, none,
      ⟨⟨rfl, rfl, rfl, rfl⟩, .inl ⟨rfl, rfl⟩⟩, (Option.some.inj h).symm.trans ?_⟩
    rw [withAck, Option.toList_none, List.append_nil]

theorem frameAck_withAck (hfree : s.drain = none)
    (h : s.frameAck send = some t) :
    ∃ client message, AckSent s.client client message ∧
      t = s.withAck client message := by
  obtain ⟨⟨client, message⟩, hsend, ht⟩ := Option.bind_eq_some_iff.1 h
  refine ⟨client, message, ackSent_of_sendAckIfNeeded hsend,
    (Option.some.inj ht).symm.trans ?_⟩
  rw [withAck, ← hfree]

end RingSystem

namespace RingInv

open RingSystem

variable {s t : RingSystem} {d : RingDrain}

/-- Only the bridge and the announcement change, and the window and the
counters of the attempts do not. -/
theorem withBridge (h : RingInv s) {b : Bridge}
    (hwindow : SameWindow s.bridge.ring b.ring)
    (hledger : SameLedger s.bridge.ring b.ring) {announcing : Option Attempt}
    (hannouncing : ∀ a, announcing = some a → s.attempts.getLast? = some a) :
    RingInv { s with bridge := b, announcing := announcing } where
  ring := h.ring.sameWindow hwindow
  numbered := h.numbered.sameLedger hledger
  announcing := hannouncing
  acks := by
    show AcksInOrder b.ring.consumer.tail.toNat _ _
    rw [hwindow.tail]
    exact h.acks
  client := h.client.extend (List.prefix_refl _) rfl rfl rfl rfl rfl

theorem publish (h : RingInv s) (beginNs endNs : UInt64) (record : Record)
    (hlt : (s.publish beginNs endNs record).attempts.length + 1 < 2 ^ 64) :
    RingInv (s.publish beginNs endNs record) := by
  have hlength : s.attempts.length + 2 < 2 ^ 64 := by
    simpa [RingSystem.publish] using hlt
  have hbound : (acceptedRecords (s.attempts ++
      [(publishAttempt s.bridge beginNs endNs record).1])).length < 2 ^ 64 := by
    have : (acceptedRecords (s.attempts ++
        [(publishAttempt s.bridge beginNs endNs record).1])).length ≤ _ :=
      acceptedRecords_length_le
    rw [List.length_append, List.length_singleton] at this
    omega
  refine ⟨represents_publishAttempt h.ring beginNs endNs record hbound,
    numbered_publishAttempt h.numbered beginNs endNs record hlength, ?_, ?_,
    h.client.extend acceptedRecords_prefix_append rfl rfl rfl rfl rfl⟩
  · intro a ha
    obtain rfl := Option.some.inj ha
    exact List.getLast?_concat
  · show AcksInOrder (publishAttempt s.bridge beginNs endNs
      record).2.ring.consumer.tail.toNat _ _
    rw [publishAttempt_tail]
    exact h.acks

theorem announce (h : RingInv s) (a : Attempt)
    (send dropUrgent urgent : IoResult) :
    RingInv (s.announceAttempt a send dropUrgent urgent) :=
  h.withBridge (sameWindow_announce s.bridge a send dropUrgent urgent)
    (sameLedger_announce s.bridge a send dropUrgent urgent)
    fun _ ha => by cases ha

theorem deliver (h : RingInv s) {ack : AckMessage} {rest : List AckMessage}
    (hchannel : s.channel = ack :: rest) (nowNs : UInt64) (urgent : IoResult) :
    RingInv (s.deliver ack rest nowNs urgent) := by
  have hcount : Represents (countControlMessage s.bridge).ring s.accepted :=
    h.ring.sameWindow ⟨rfl, rfl, rfl, rfl⟩
  have hledger := sameLedger_handleAck (countControlMessage s.bridge) ack nowNs
    urgent
  have hacks := h.acks
  rw [hchannel] at hacks
  have horder := AcksInOrder.deliver (b := countControlMessage s.bridge) hacks
    nowNs urgent
  rw [RingSystem.deliver_eq]
  exact ⟨represents_handleAck hcount ack nowNs urgent,
    h.numbered.sameLedger hledger, h.announcing, horder.1,
    h.client.extend (List.prefix_refl _) rfl rfl rfl rfl rfl⟩

theorem loseDevice (h : RingInv s) (send urgent : IoResult) :
    RingInv (s.loseDevice send urgent) :=
  have hquiet := quiet_markDeviceGone s.bridge send urgent
  h.withBridge hquiet.window hquiet.ledger h.announcing

theorem reconnect (h : RingInv s) (fd : Int32) (send urgent : IoResult) :
    RingInv (s.reconnect fd send urgent) := by
  rcases tryReconnectDevice_cases s.bridge send urgent fd with hquiet | hnext
  · exact h.withBridge hquiet.window hquiet.ledger h.announcing
  · exact h.withBridge hnext.window hnext.ledger h.announcing

/-! ## Steps of the client -/

/-- Only the client changes. -/
private theorem ring_client_aux (h : RingInv s) (hbridge : t.bridge = s.bridge)
    (hannouncing : t.announcing = s.announcing)
    (hattempts : t.attempts = s.attempts) (hchannel : t.channel = s.channel)
    (hacked : t.client.lastAckedTail = s.client.lastAckedTail)
    (hclient : ClientInv s.accepted t) : RingInv t := by
  have haccepted : t.accepted = s.accepted := by
    rw [accepted, accepted, hattempts]
  refine ⟨?_, ?_, ?_, ?_, ?_⟩
  · rw [hbridge, haccepted]
    exact h.ring
  · rw [hbridge, hattempts]
    exact h.numbered
  · rw [hannouncing, hattempts]
    exact h.announcing
  · rw [tail, hbridge, hchannel, hacked]
    exact h.acks
  · rw [haccepted]
    exact hclient

theorem readUrgent (h : RingInv s) : RingInv s.readUrgent :=
  have hbridge := h.withBridge (b := { s.bridge with urgentFd := 0 })
    (SameWindow.refl _) (SameLedger.refl _) h.announcing
  have hc := hbridge.client
  hbridge.ring_client_aux rfl rfl rfl rfl rfl
    ⟨hc.acked_le, hc.local_le, hc.start_le, hc.accounted, hc.pushed, hc.counted,
      hc.ledger, hc.drain⟩

theorem lock (h : RingInv s) (hfree : s.drain = none) (thread : ClientThread)
    (reason : ReceiptReason) (acknowledgeNow : Bool) :
    RingInv (s.lock thread reason acknowledgeNow) := by
  have hbetween : s.phase.uncounted = [] := by
    rw [phase_of_free hfree]
    rfl
  refine h.ring_client_aux rfl rfl rfl rfl rfl
    (h.client.between hbetween rfl ⟨rfl, rfl, rfl, rfl⟩ rfl rfl rfl
      h.client.acked_le ?_)
  intro d hd
  obtain rfl := Option.some.inj hd
  exact ⟨h.client.local_le, trivial⟩

theorem lockUrgent (h : RingInv s) (hfree : s.drain = none) :
    RingInv s.lockUrgent :=
  have hlock := h.lock hfree .ingress .urgent true
  have hc := hlock.client
  hlock.ring_client_aux rfl rfl rfl rfl rfl
    ⟨hc.acked_le, hc.local_le, hc.start_le, hc.accounted, hc.pushed, hc.counted,
      hc.ledger, hc.drain⟩

/-- The client is inside the window, so a head load never fails. -/
theorem available (h : RingInv s) :
    ∃ n, snapshotAvailable s.capacity s.head s.client.localTail drainBatchSize =
        .ok n ∧
      n.toNat = min drainBatchSize.toNat
        (s.accepted.length - s.client.localTail.toNat) :=
  snapshotAvailable_eq h.ring (h.acks.tail_le.trans h.client.acked_le)
    h.client.local_le drainBatchSize

theorem loadHead (h : RingInv s) (hdrain : s.drain = some d)
    (hphase : d.phase = .load) {n : UInt64}
    (hn : snapshotAvailable s.capacity s.head s.client.localTail drainBatchSize =
      .ok n) : RingInv (s.loadHead d n) := by
  obtain ⟨m, hm, hcount⟩ := h.available
  obtain rfl : m = n := Except.ok.inj (hm.symm.trans hn)
  have hlocal := h.client.local_le
  have hhead : s.head.toNat = s.accepted.length := h.ring.head
  have hsize : drainBatchSize.toNat = 4096 := rfl
  have hbetween : s.phase.uncounted = [] := by
    rw [phase_of_drain hdrain, hphase]
    rfl
  have hload : (s.loadHead d m).phase.uncounted = [] := by
    show (if m == 0 then DrainPhase.finish else .copy m).uncounted = []
    split <;> rfl
  refine h.ring_client_aux rfl rfl rfl rfl rfl
    (h.client.between hbetween hload ⟨rfl, rfl, rfl, rfl⟩ rfl rfl rfl
      h.client.acked_le ?_)
  intro e he
  obtain rfl := Option.some.inj he
  refine ⟨Nat.le_of_eq hhead, ?_⟩
  show (if m == 0 then DrainPhase.finish else .copy m).Bounds s.head.toNat
    s.client.localTail.toNat
  split
  · rename_i hzero
    have hm0 : m.toNat = 0 := congrArg UInt64.toNat (beq_iff_eq.1 hzero)
    show s.head.toNat ≤ s.client.localTail.toNat
    omega
  · refine ⟨?_, ?_, fun hshort => ?_⟩
    · omega
    · omega
    · omega

/-- The copy of a batch. -/
theorem copyBatch (h : RingInv s) (hdrain : s.drain = some d) {n : UInt64}
    (hphase : d.phase = .copy n) : RingInv (s.copyBatch d n) := by
  have hc := h.client
  obtain ⟨hloaded, hbounds⟩ := hc.drain d hdrain
  rw [hphase] at hbounds
  obtain ⟨hend, hfull, hshort⟩ := hbounds
  have hle : s.client.localTail.toNat + n.toNat ≤ s.accepted.length :=
    hend.trans hloaded
  have hsum : (s.client.localTail + n).toNat = s.client.localTail.toNat + n.toNat := by
    rw [UInt64.toNat_add, Nat.mod_eq_of_lt]
    exact Nat.lt_of_le_of_lt hle h.ring.head_lt
  have hbatch := copySlots_eq h.ring (h.acks.tail_le.trans hc.acked_le) hle
  have hlength : (copySlots s.bridge.ring s.client.localTail n).length = n.toNat := by
    rw [hbatch, slice_length hle]
    omega
  have hextend : slice s.accepted s.start (s.client.localTail + n).toNat =
      slice s.accepted s.start s.client.localTail.toNat ++
        copySlots s.bridge.ring s.client.localTail n := by
    rw [hbatch, hsum, slice_append_slice hc.start_le (Nat.le_add_right _ _)]
  have haccounted := hc.accounted
  have hpushed := hc.pushed
  have hcounted := hc.counted
  have hacked := hc.acked_le
  have hstart := hc.start_le
  rw [phase_of_drain hdrain, hphase] at haccounted hpushed hcounted
  simp only [DrainPhase.unaccounted, DrainPhase.unpushed, DrainPhase.uncounted,
    List.append_nil, List.length_nil] at haccounted hpushed hcounted
  refine h.ring_client_aux rfl rfl rfl rfl rfl ⟨?_, ?_, ?_, ?_, ?_, ?_, hc.ledger, ?_⟩
  · show s.client.lastAckedTail.toNat ≤ (s.client.localTail + n).toNat
    omega
  · show (s.client.localTail + n).toNat ≤ s.accepted.length
    omega
  · show s.start ≤ (s.client.localTail + n).toNat
    omega
  · show s.accounted ++ copySlots s.bridge.ring s.client.localTail n =
      slice s.accepted s.start (s.client.localTail + n).toNat
    rw [hextend, haccounted]
  · show s.taken.flatten ++ s.client.pending.records ++
      copySlots s.bridge.ring s.client.localTail n =
        slice s.accepted s.start (s.client.localTail + n).toNat
    rw [hextend, hpushed]
  · show s.client.stats.ringRecords.toNat +
      (copySlots s.bridge.ring s.client.localTail n).length =
        (s.client.localTail + n).toNat - s.start
    omega
  · intro e he
    obtain rfl := Option.some.inj he
    refine ⟨hloaded, ?_⟩
    show (copySlots s.bridge.ring s.client.localTail n).length < _ →
      d.loaded.toNat ≤ (s.client.localTail + n).toNat
    intro hlt
    rw [hlength] at hlt
    rw [hsum, hshort hlt]

/-- The ledger sees the next batch in order. -/
theorem account (h : RingInv s) (hdrain : s.drain = some d) {batch : List Record}
    (hphase : d.phase = .account batch) (nowNs : UInt64) :
    RingInv (s.account d batch nowNs) := by
  have hc := h.client
  have haccounted := hc.accounted
  have hpushed := hc.pushed
  have hcounted := hc.counted
  rw [phase_of_drain hdrain, hphase] at haccounted hpushed hcounted
  have hbounds := hc.drain d hdrain
  rw [hphase] at hbounds
  -- Behind the batch the ledger has seen a part of the accepted records.
  have hsub : (s.accounted ++ batch).Sublist s.accepted := by
    rw [show s.accounted ++ batch = slice s.accepted s.start _ from haccounted]
    exact (List.drop_sublist _ _).trans (List.take_sublist _ _)
  have hledger : (s.client.stats.ledger.account batch).Of (s.accounted ++ batch) := by
    refine hc.ledger.account (h.numbered.accepted_increasing.sublist hsub) ?_
    intro record hmem
    exact h.numbered.accepted_pos record
      (hsub.subset (List.mem_append_right _ hmem))
  obtain ⟨seen, ages, receipts, hclient⟩ :=
    accountBatch_frame s.client d.reason batch nowNs
  have hinv : ClientInv s.accepted { s with
      client := { s.client with
        stats.ledger := s.client.stats.ledger.account batch
        terminalSeen := seen
        buttonAges := ages
        receipts := receipts }
      drain := some { d with phase := .push batch }
      accounted := s.accounted ++ batch } := by
    refine ⟨hc.acked_le, hc.local_le, hc.start_le, ?_, hpushed, hcounted, hledger, ?_⟩
    · show (s.accounted ++ batch) ++ [] = _
      rw [List.append_nil]
      exact haccounted
    · intro e he
      obtain rfl := Option.some.inj he
      exact hbounds
  rw [RingSystem.account, hclient]
  exact h.ring_client_aux rfl rfl rfl rfl rfl hinv

/-- The batch goes to the end of the queue. -/
theorem pushBatch (h : RingInv s) (hdrain : s.drain = some d)
    {batch : List Record} (hphase : d.phase = .push batch) {client : Client}
    (hpush : pushPending s.client batch = some client) :
    RingInv (s.pushBatch d batch client) := by
  obtain ⟨queue, hqueue, rfl⟩ := pushPending_frame hpush
  have hc := h.client
  have haccounted := hc.accounted
  have hpushed := hc.pushed
  have hcounted := hc.counted
  rw [phase_of_drain hdrain, hphase] at haccounted hpushed hcounted
  have hbounds := hc.drain d hdrain
  rw [hphase] at hbounds
  refine h.ring_client_aux rfl rfl rfl rfl rfl
    ⟨hc.acked_le, hc.local_le, hc.start_le, haccounted, ?_, hcounted, hc.ledger, ?_⟩
  · show s.taken.flatten ++ queue.records ++ [] = _
    rw [hqueue, List.append_nil, ← List.append_assoc]
    exact hpushed
  · intro e he
    obtain rfl := Option.some.inj he
    exact hbounds

/-- The batch is counted, and the drain ends behind a batch that was not
full. -/
theorem countBatch (h : RingInv s) (hdrain : s.drain = some d)
    {batch : List Record} (hphase : d.phase = .count batch) :
    RingInv (s.countBatch d batch) := by
  have hc := h.client
  have haccounted := hc.accounted
  have hpushed := hc.pushed
  have hcounted := hc.counted
  rw [phase_of_drain hdrain, hphase] at haccounted hpushed hcounted
  have hbounds := hc.drain d hdrain
  rw [hphase] at hbounds
  have hnext : (s.countBatch d batch).phase =
      if batch.length < drainBatchSize.toNat then .finish else .load := rfl
  have hbetween : (s.countBatch d batch).phase.uncounted = [] := by
    rw [hnext]
    split <;> rfl
  refine h.ring_client_aux rfl rfl rfl rfl rfl
    ⟨hc.acked_le, hc.local_le, hc.start_le, ?_, ?_, ?_, hc.ledger, ?_⟩
  · rw [DrainPhase.unaccounted_of_uncounted hbetween]
    exact haccounted
  · rw [DrainPhase.unpushed_of_uncounted hbetween]
    exact hpushed
  · rw [hbetween]
    show (s.client.stats.ringRecords + UInt64.ofNat batch.length).toNat + 0 = _
    have hlocal := hc.local_le
    have hlt := h.ring.head_lt
    have hsum : s.client.stats.ringRecords.toNat + batch.length =
        s.client.localTail.toNat - s.start := hcounted
    rw [UInt64.toNat_add, UInt64.toNat_ofNat', Nat.mod_eq_of_lt (b := 2 ^ 64)
      (by omega), Nat.mod_eq_of_lt (by omega)]
    exact hsum
  · intro e he
    obtain rfl := Option.some.inj he
    refine ⟨hbounds.1, ?_⟩
    show (if batch.length < drainBatchSize.toNat then DrainPhase.finish
      else .load).Bounds d.loaded.toNat s.client.localTail.toNat
    split
    · rename_i hshort
      exact hbounds.2 hshort
    · trivial

theorem takePending (h : RingInv s) : RingInv s.takePending := by
  have hc := h.client
  refine h.ring_client_aux rfl rfl rfl rfl rfl
    ⟨hc.acked_le, hc.local_le, hc.start_le, hc.accounted, ?_, hc.counted,
      hc.ledger, hc.drain⟩
  show (s.taken ++ [s.client.pending.records]).flatten ++ [] ++ s.phase.unpushed = _
  rw [List.flatten_append, List.flatten_singleton, List.append_nil]
  exact hc.pushed

/-- The unlock behind an ACK call. -/
theorem withAck (h : RingInv s) (hbetween : s.phase.uncounted = [])
    {client : Client} {message : Option AckMessage}
    (hsent : AckSent s.client client message) : RingInv (s.withAck client message) := by
  have hacked : client.lastAckedTail.toNat ≤ s.client.localTail.toNat := by
    rcases hsent.acked with ⟨-, heq⟩ | ⟨-, heq⟩
    · rw [heq]
      exact h.client.acked_le
    · rw [heq]
  refine ⟨h.ring, h.numbered, h.announcing, ?_, h.client.between hbetween rfl
    hsent.frame rfl rfl rfl hacked fun d hd => by cases hd⟩
  show AcksInOrder _ (s.channel ++ message.toList) client.lastAckedTail.toNat
  rcases hsent.acked with ⟨rfl, heq⟩ | ⟨rfl, heq⟩
  · rw [heq, Option.toList_none, List.append_nil]
    exact h.acks
  · rw [heq]
    exact h.acks.send ⟨s.client.generation, s.client.localTail⟩ h.client.acked_le

/-- Every step keeps the invariant, as long as no counter wraps. -/
theorem step (h : RingInv s) {label : RingLabel} (hstep : RingStep s label t)
    (hlt : t.attempts.length + 1 < 2 ^ 64) : RingInv t := by
  cases hstep with
  | publish hidle => exact h.publish _ _ _ hlt
  | announce hattempt hallowed => exact h.announce _ _ _ _
  | deliver hchannel hallowed => exact h.deliver hchannel _ _
  | gone hallowed => exact h.loseDevice _ _
  | reconnect hallowed => exact h.reconnect _ _ _
  | readUrgent hpolls => exact h.readUrgent
  | lockUrgent hsignalled hfree => exact h.lockUrgent hfree
  | lockFrame hfree => exact h.lock hfree _ _ _
  | load hdrain hphase havailable => exact h.loadHead hdrain hphase havailable
  | copy hdrain hphase => exact h.copyBatch hdrain hphase
  | account hdrain hphase => exact h.account hdrain hphase _
  | push hdrain hphase hpush => exact h.pushBatch hdrain hphase hpush
  | count hdrain hphase => exact h.countBatch hdrain hphase
  | finish hdrain hphase hfinish =>
    obtain ⟨client, message, hsent, rfl⟩ := finish_withAck hfinish
    refine h.withAck ?_ hsent
    rw [phase_of_drain hdrain, hphase]
    rfl
  | takePending hruns => exact h.takePending
  | frameAck hfree hack =>
    obtain ⟨client, message, hsent, rfl⟩ := frameAck_withAck hfree hack
    refine h.withAck ?_ hsent
    rw [phase_of_free hfree]
    rfl

end RingInv

/-! ## Runs -/

/-- The attempts made so far are not taken back. -/
theorem RingStep.attempts_extend {s t : RingSystem} {label : RingLabel}
    (hstep : RingStep s label t) : s.attempts <+: t.attempts := by
  cases hstep with
  | publish hidle => exact List.prefix_append _ _
  | deliver hchannel hallowed =>
    rw [RingSystem.deliver_eq]
  | finish hdrain hphase hfinish =>
    obtain ⟨client, message, -, rfl⟩ := RingSystem.finish_withAck hfinish
    exact List.prefix_refl _
  | frameAck hfree hack =>
    obtain ⟨client, message, -, rfl⟩ := RingSystem.frameAck_withAck hfree hack
    exact List.prefix_refl _
  | _ => exact List.prefix_refl _

/-- No step moves the first position. -/
theorem RingStep.start_eq {s t : RingSystem} {label : RingLabel}
    (hstep : RingStep s label t) : t.start = s.start := by
  cases hstep with
  | deliver hchannel hallowed => rw [RingSystem.deliver_eq]
  | finish hdrain hphase hfinish =>
    obtain ⟨client, message, -, rfl⟩ := RingSystem.finish_withAck hfinish
    rfl
  | frameAck hfree hack =>
    obtain ⟨client, message, -, rfl⟩ := RingSystem.frameAck_withAck hfree hack
    rfl
  | _ => rfl

theorem ringMachine_mono {s t : RingSystem} {label : RingLabel}
    (hstep : ringMachine.step s label = some t) :
    s.attempts.length + 1 ≤ t.attempts.length + 1 :=
  Nat.succ_le_succ (ringStep_cases hstep).attempts_extend.length_le

/-- A client that starts inside the window satisfies the invariant. -/
theorem ringInv_initial {b : Bridge} {attempts : List Attempt}
    (hring : Represents b.ring (acceptedRecords attempts))
    (hnumbered : Numbered b.ring attempts) (policy : ClientPolicy) (generation : UInt64)
    {position : UInt64} (hlo : b.ring.consumer.tail ≤ position)
    (hhi : position ≤ b.ring.producer.head) :
    RingInv (.initial b attempts policy generation position) := by
  rw [UInt64.le_iff_toNat_le] at hlo hhi
  have hnone : ([] : List Record) = slice (acceptedRecords attempts)
      position.toNat position.toNat := slice_self.symm
  refine ⟨hring, hnumbered, ?_, AcksInOrder.nil_iff.2 hlo, Nat.le_refl _,
    hhi.trans_eq hring.head, Nat.le_refl _, hnone, hnone, (Nat.sub_self _).symm,
    Ledger.of_zero, ?_⟩
  · intro a ha
    cases ha
  · intro d hd
    cases hd

/-- The invariant holds along every run with fewer than 2^64 - 1
attempts. -/
theorem ringInv_run {s t : RingSystem} {labels : List RingLabel} (h : RingInv s)
    (hrun : ringMachine.run s labels = some t)
    (hlt : t.attempts.length + 1 < 2 ^ 64) : RingInv t :=
  Machine.run_invariant_below RingInv (fun u => u.attempts.length + 1)
    (fun _ _ _ hstep => ringMachine_mono hstep)
    (fun _ _ _ hu hv hstep => hu.step (ringStep_cases hstep) hv) h hrun hlt

namespace ClientStart

/-- The ring client behind its start. -/
def ringState (x : ClientStart) : RingSystem :=
  .initial x.bridge x.attempts x.policy x.generation x.position

theorem ringInv (x : ClientStart) (hlt : x.attempts.length + 1 < 2 ^ 64) :
    RingInv x.ringState :=
  ringInv_initial (x.represents hlt) (x.numbered hlt) x.policy x.generation x.tail_le
    x.le_head

/-- The invariant along a run. -/
theorem ringInv_run (x : ClientStart) {labels : List RingLabel} {s : RingSystem}
    (hrun : ringMachine.run x.ringState labels = some s)
    (hlt : s.attempts.length + 1 < 2 ^ 64) : RingInv s := by
  have hmono : x.attempts.length + 1 ≤ s.attempts.length + 1 :=
    Machine.run_mono (μ := fun u : RingSystem => u.attempts.length + 1)
      (fun _ _ _ hstep => ringMachine_mono hstep) hrun
  exact Hfior.ringInv_run (x.ringInv (Nat.lt_of_le_of_lt hmono hlt)) hrun hlt

end ClientStart

end Hfior
