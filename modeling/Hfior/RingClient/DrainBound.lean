import Hfior.RingClient.Depth

/-!
# How long a drain takes

The loop of `drain_ring` goes on while it reads full batches, and the
producer may publish between any two of them.  What ends it is the credit of
the producer: while the mutex is held no ACK is sent, so the tail of the
bridge stays at or below the acknowledged tail of the client.

`loopMachine` is `ringMachine` with the drains of every policy: the eager
policy drains in `shadow`, where a batch is only counted.  `PosInv` is the
order of the positions, and `LoopInv` counts the batches of the call.  The
fields `start`, `acked`, `copied`, `iterations` and `moves` are ghosts.
-/

namespace Hfior

/-- The drains of one client. -/
structure LoopSystem where
  system : RingSystem
  /-- The drain in progress is a shadow drain. -/
  shadow : Bool
  /-- The local tail when the last drain began. -/
  start : Nat
  /-- The acknowledged tail when the last drain began. -/
  acked : Nat
  /-- The records that the last drain has copied. -/
  copied : Nat
  /-- The rounds of the loop of the last drain. -/
  iterations : Nat
  /-- The steps of these rounds. -/
  moves : Nat

/-- The steps of a round behind its copy, which a shadow drain leaves out. -/
def RingLabel.ofBatch : RingLabel → Bool
  | .account .. | .push | .count => true
  | _ => false

inductive LoopLabel where
  | system (label : RingLabel)
  | lockShadow (reason : ReceiptReason) (acknowledgeNow : Bool)
  /-- The counter of a shadow drain, and its next round. -/
  | countShadow
  /-- A message of the control socket. -/
  | receive (acceptEager : Bool) (nowNs : UInt64) (message : BridgeMessage)
deriving DecidableEq

namespace LoopSystem

/-- A client that has not drained yet. -/
def initial (s : RingSystem) : LoopSystem := ⟨s, false, 0, 0, 0, 0, 0⟩

/-- The state behind a lock: a new call. -/
def began (s : LoopSystem) (system : RingSystem) (shadow : Bool) : LoopSystem where
  system := system
  shadow := shadow
  start := s.system.client.localTail.toNat
  acked := s.system.client.lastAckedTail.toNat
  copied := 0
  iterations := 0
  moves := 0

/-- The state behind a step of `ringMachine`. -/
def after (s : LoopSystem) (system : RingSystem) : RingLabel → LoopSystem
  | .lockUrgent | .lockFrame .. => s.began system false
  | .load => { s with
      system := system, iterations := s.iterations + 1, moves := s.moves + 1 }
  | .copy => { s with
      system := system
      copied := s.copied +
        (system.client.localTail - s.system.client.localTail).toNat
      moves := s.moves + 1 }
  | .account .. | .push | .count => { s with system := system, moves := s.moves + 1 }
  | _ => { s with system := system }

@[simp] theorem after_system (s : LoopSystem) (system : RingSystem) (label : RingLabel) :
    (s.after system label).system = system := by
  cases label <;> rfl

/-- The end of a round of a shadow drain. -/
def countShadow (s : LoopSystem) (d : RingDrain) (batch : List Record) : LoopSystem :=
  { s with
    system := { s.system with
      client := countShadowRecords s.system.client batch.length
      drain := some { d with
        phase := if batch.length < drainBatchSize.toNat then .finish else .load } }
    moves := s.moves + 1 }

end LoopSystem

/-- One step. -/
def loopStep (s : LoopSystem) : LoopLabel → Option LoopSystem
  | .system label =>
    if s.shadow && label.ofBatch then none
    else (ringMachine.step s.system label).map fun system => s.after system label
  | .lockShadow reason acknowledgeNow =>
    if s.system.drain.isNone then
      some (s.began (s.system.lock .frame reason acknowledgeNow) true)
    else none
  | .countShadow => match s.system.drain with
    | some d => match d.phase with
      | .account batch => if s.shadow then some (s.countShadow d batch) else none
      | _ => none
    | none => none
  | .receive acceptEager nowNs message =>
    (receiveMessage s.system.client acceptEager nowNs message).map fun client =>
      { s with system := { s.system with client := client } }

/-- The interleavings of the bridge with the drains of any policy. -/
def loopMachine : Machine LoopSystem LoopLabel where
  step := loopStep

/-- Everything that a step can do. -/
inductive LoopStep (s : LoopSystem) : LoopLabel → LoopSystem → Prop
  | system {label system} (hallowed : (s.shadow && label.ofBatch) = false)
      (hstep : RingStep s.system label system) :
    LoopStep s (.system label) (s.after system label)
  | lockShadow {reason acknowledgeNow} (hfree : s.system.drain = none) :
    LoopStep s (.lockShadow reason acknowledgeNow)
      (s.began (s.system.lock .frame reason acknowledgeNow) true)
  | countShadow {d batch} (hdrain : s.system.drain = some d)
      (hphase : d.phase = .account batch) :
    LoopStep s .countShadow (s.countShadow d batch)
  | receive {acceptEager nowNs message client}
      (hreceive : receiveMessage s.system.client acceptEager nowNs message = some client) :
    LoopStep s (.receive acceptEager nowNs message)
      { s with system := { s.system with client := client } }

theorem loopStep_cases {s t : LoopSystem} {label : LoopLabel}
    (h : loopMachine.step s label = some t) : LoopStep s label t := by
  have h : loopStep s label = some t := h
  cases label with
  | system label =>
    simp only [loopStep] at h
    split at h
    · cases h
    · rename_i hallowed
      rw [Bool.not_eq_true] at hallowed
      obtain ⟨system, hsystem, rfl⟩ := Option.map_eq_some_iff.1 h
      exact .system hallowed (ringStep_cases hsystem)
  | lockShadow reason acknowledgeNow =>
    simp only [loopStep] at h
    split at h
    · rename_i hfree
      obtain rfl := Option.some.inj h
      exact .lockShadow (Option.isNone_iff_eq_none.1 hfree)
    · cases h
  | countShadow =>
    simp only [loopStep] at h
    split at h
    · rename_i d hdrain
      split at h
      · rename_i batch hphase
        split at h
        · obtain rfl := Option.some.inj h
          exact .countShadow hdrain hphase
        · cases h
      · cases h
    · cases h
  | receive acceptEager nowNs message =>
    simp only [loopStep] at h
    obtain ⟨client, hclient, rfl⟩ := Option.map_eq_some_iff.1 h
    exact .receive hclient

/-! ## The order of the positions -/

/-- The tails are in order, and a batch whose head is loaded is there. -/
structure PosInv (s : RingSystem) : Prop where
  ring : Represents s.bridge.ring s.accepted
  acks : AcksInOrder s.tail.toNat s.channel s.client.lastAckedTail.toNat
  acked_le : s.client.lastAckedTail.toNat ≤ s.client.localTail.toNat
  local_le : s.client.localTail.toNat ≤ s.accepted.length
  copying : ∀ d n, s.drain = some d → d.phase = .copy n →
    s.client.localTail.toNat + n.toNat ≤ s.accepted.length ∧
      n.toNat ≤ drainBatchSize.toNat

theorem RingInv.posInv {s : RingSystem} (h : RingInv s) : PosInv s := by
  refine ⟨h.ring, h.acks, h.client.acked_le, h.client.local_le, ?_⟩
  intro d n hdrain hphase
  obtain ⟨hloaded, hbounds⟩ := h.client.drain d hdrain
  rw [hphase] at hbounds
  exact ⟨hbounds.1.trans hloaded, hbounds.2.1⟩

namespace PosInv

open RingSystem

variable {s t : RingSystem} {d : RingDrain}

/-- The credit of the producer: the positions that it can reach while no ACK
is sent. -/
theorem accepted_le (h : PosInv s) :
    s.accepted.length ≤ s.client.lastAckedTail.toNat + s.capacity.toNat :=
  h.ring.le_tail.trans (Nat.add_le_add_right h.acks.tail_le _)

/-- A step of the bridge. -/
theorem ofBridge (h : PosInv s) (hring : Represents t.bridge.ring t.accepted)
    (hgrow : s.accepted.length ≤ t.accepted.length)
    (hacks : AcksInOrder t.tail.toNat t.channel s.client.lastAckedTail.toNat)
    (hclient : t.client = s.client) (hdrain : t.drain = s.drain) : PosInv t := by
  refine ⟨hring, ?_, ?_, ?_, ?_⟩
  · rw [hclient]
    exact hacks
  · rw [hclient]
    exact h.acked_le
  · rw [hclient]
    exact h.local_le.trans hgrow
  · intro d n hd hphase
    rw [hdrain] at hd
    rw [hclient]
    exact ⟨(h.copying d n hd hphase).1.trans hgrow, (h.copying d n hd hphase).2⟩

/-- A step of the client that moves no position. -/
theorem ofClient (h : PosInv s) (hbridge : t.bridge = s.bridge)
    (hattempts : t.attempts = s.attempts) (hchannel : t.channel = s.channel)
    (hlocal : t.client.localTail = s.client.localTail)
    (hacked : t.client.lastAckedTail = s.client.lastAckedTail)
    (hcopying : ∀ d n, t.drain = some d → d.phase = .copy n →
      s.client.localTail.toNat + n.toNat ≤ s.accepted.length ∧
        n.toNat ≤ drainBatchSize.toNat) : PosInv t := by
  have haccepted : t.accepted = s.accepted := by
    rw [accepted, accepted, hattempts]
  refine ⟨?_, ?_, ?_, ?_, ?_⟩
  · rw [hbridge, haccepted]
    exact h.ring
  · rw [tail, hbridge, hchannel, hacked]
    exact h.acks
  · rw [hlocal, hacked]
    exact h.acked_le
  · rw [hlocal, haccepted]
    exact h.local_le
  · rw [hlocal, haccepted]
    exact hcopying

theorem publish (h : PosInv s) (beginNs endNs : UInt64) (record : Record)
    (hlt : (s.publish beginNs endNs record).attempts.length + 1 < 2 ^ 64) :
    PosInv (s.publish beginNs endNs record) := by
  have hgrow : s.accepted <+: (s.publish beginNs endNs record).accepted :=
    acceptedRecords_prefix_append
  have hbound : (s.publish beginNs endNs record).accepted.length < 2 ^ 64 := by
    have : (s.publish beginNs endNs record).accepted.length ≤ _ := acceptedRecords_length_le
    omega
  refine h.ofBridge (represents_publishAttempt h.ring beginNs endNs record hbound)
    hgrow.length_le ?_ rfl rfl
  show AcksInOrder (publishAttempt s.bridge beginNs endNs
    record).2.ring.consumer.tail.toNat _ _
  rw [publishAttempt_tail]
  exact h.acks

/-- The bridge changes, and its window does not. -/
theorem withBridge (h : PosInv s) {b : Bridge} (hwindow : SameWindow s.bridge.ring b.ring)
    (announcing : Option Attempt) :
    PosInv { s with bridge := b, announcing := announcing } := by
  refine h.ofBridge (h.ring.sameWindow hwindow) (Nat.le_refl _) ?_ rfl rfl
  show AcksInOrder b.ring.consumer.tail.toNat _ _
  rw [hwindow.tail]
  exact h.acks

theorem deliver (h : PosInv s) {ack : AckMessage} {rest : List AckMessage}
    (hchannel : s.channel = ack :: rest) (nowNs : UInt64) (urgent : IoResult) :
    PosInv (s.deliver ack rest nowNs urgent) := by
  have hcount : Represents (countControlMessage s.bridge).ring s.accepted :=
    h.ring.sameWindow ⟨rfl, rfl, rfl, rfl⟩
  have hacks := h.acks
  rw [hchannel] at hacks
  have horder := AcksInOrder.deliver (b := countControlMessage s.bridge) hacks
    nowNs urgent
  rw [RingSystem.deliver_eq]
  exact h.ofBridge (represents_handleAck hcount ack nowNs urgent) (Nat.le_refl _) horder.1
    rfl rfl

theorem reconnect (h : PosInv s) (fd : Int32) (send urgent : IoResult) :
    PosInv (s.reconnect fd send urgent) := by
  rcases tryReconnectDevice_cases s.bridge send urgent fd with hquiet | hnext
  · exact h.withBridge hquiet.window s.announcing
  · exact h.withBridge hnext.window s.announcing

/-- A head load succeeds, and finds at most one full batch. -/
theorem available (h : PosInv s) :
    ∃ n, snapshotAvailable s.capacity s.head s.client.localTail drainBatchSize =
        .ok n ∧
      n.toNat = min drainBatchSize.toNat
        (s.accepted.length - s.client.localTail.toNat) :=
  snapshotAvailable_eq h.ring (h.acks.tail_le.trans h.acked_le) h.local_le drainBatchSize

theorem loadHead (h : PosInv s) (d : RingDrain) {n : UInt64}
    (hn : snapshotAvailable s.capacity s.head s.client.localTail drainBatchSize =
      .ok n) : PosInv (s.loadHead d n) := by
  obtain ⟨m, hm, hcount⟩ := h.available
  obtain rfl : m = n := Except.ok.inj (hm.symm.trans hn)
  have hlocal := h.local_le
  refine h.ofClient rfl rfl rfl rfl rfl ?_
  intro e k he hphase
  obtain rfl := Option.some.inj he
  have hphase : (if m == 0 then DrainPhase.finish else .copy m) = .copy k := hphase
  split at hphase
  · cases hphase
  · cases hphase
    omega

theorem copyBatch (h : PosInv s) (hdrain : s.drain = some d) {n : UInt64}
    (hphase : d.phase = .copy n) :
    (s.client.localTail + n).toNat = s.client.localTail.toNat + n.toNat ∧
      PosInv (s.copyBatch d n) := by
  have hend := (h.copying d n hdrain hphase).1
  have hsum : (s.client.localTail + n).toNat = s.client.localTail.toNat + n.toNat := by
    rw [UInt64.toNat_add, Nat.mod_eq_of_lt]
    exact Nat.lt_of_le_of_lt hend h.ring.head_lt
  have hacked := h.acked_le
  refine ⟨hsum, h.ring, h.acks, ?_, ?_, ?_⟩
  · show s.client.lastAckedTail.toNat ≤ (s.client.localTail + n).toNat
    omega
  · show (s.client.localTail + n).toNat ≤ s.accepted.length
    omega
  · intro e k he hcopy
    obtain rfl := Option.some.inj he
    cases hcopy

/-- The end of a round, which only counts. -/
theorem endRound (h : PosInv s) (d : RingDrain) (batch : List Record) {client : Client}
    (hlocal : client.localTail = s.client.localTail)
    (hacked : client.lastAckedTail = s.client.lastAckedTail) :
    PosInv { s with
      client := client
      drain := some { d with
        phase := if batch.length < drainBatchSize.toNat then .finish else .load } } := by
  refine h.ofClient rfl rfl rfl hlocal hacked fun e n he hcopy => ?_
  obtain rfl := Option.some.inj he
  have hcopy : (if batch.length < drainBatchSize.toNat then DrainPhase.finish
    else .load) = .copy n := hcopy
  split at hcopy <;> cases hcopy

/-- The unlock behind an ACK call. -/
theorem withAck (h : PosInv s) {client : Client} {message : Option AckMessage}
    (hsent : AckSent s.client client message) : PosInv (s.withAck client message) := by
  have hlocal := hsent.frame.localTail
  refine ⟨h.ring, ?_, ?_, ?_, fun _ _ hd => by cases hd⟩
  · show AcksInOrder _ (s.channel ++ message.toList) client.lastAckedTail.toNat
    rcases hsent.acked with ⟨rfl, heq⟩ | ⟨rfl, heq⟩
    · rw [heq, Option.toList_none, List.append_nil]
      exact h.acks
    · rw [heq]
      exact h.acks.send ⟨s.client.generation, s.client.localTail⟩ h.acked_le
  · show client.lastAckedTail.toNat ≤ client.localTail.toNat
    rw [hlocal]
    rcases hsent.acked with ⟨-, heq⟩ | ⟨-, heq⟩
    · rw [heq]
      exact h.acked_le
    · rw [heq]
  · show client.localTail.toNat ≤ s.accepted.length
    rw [hlocal]
    exact h.local_le

/-- Every step of `ringMachine` keeps the order. -/
theorem step (h : PosInv s) {label : RingLabel} (hstep : RingStep s label t)
    (hlt : t.attempts.length + 1 < 2 ^ 64) : PosInv t := by
  cases hstep with
  | publish hidle => exact h.publish _ _ _ hlt
  | announce hattempt hallowed =>
    exact h.withBridge (sameWindow_announce s.bridge _ _ _ _) none
  | deliver hchannel hallowed => exact h.deliver hchannel _ _
  | gone hallowed =>
    exact h.withBridge (quiet_markDeviceGone s.bridge _ _).window s.announcing
  | reconnect hallowed => exact h.reconnect _ _ _
  | readUrgent hpolls =>
    have hbridge := h.withBridge (b := { s.bridge with urgentFd := 0 }) (SameWindow.refl _)
      s.announcing
    exact hbridge.ofClient rfl rfl rfl rfl rfl h.copying
  | lockUrgent hsignalled hfree =>
    exact h.ofClient rfl rfl rfl rfl rfl fun d n hd hcopy => by cases hd; cases hcopy
  | lockFrame hfree =>
    exact h.ofClient rfl rfl rfl rfl rfl fun d n hd hcopy => by cases hd; cases hcopy
  | load hdrain hphase havailable => exact h.loadHead _ havailable
  | copy hdrain hphase => exact (h.copyBatch hdrain hphase).2
  | @account d batch nowNs hdrain hphase =>
    obtain ⟨seen, ages, receipts, hclient⟩ := accountBatch_frame s.client d.reason batch nowNs
    rw [RingSystem.account, hclient]
    exact h.ofClient rfl rfl rfl rfl rfl fun d n hd hcopy => by cases hd; cases hcopy
  | push hdrain hphase hpush =>
    obtain ⟨queue, hqueue, rfl⟩ := pushPending_frame hpush
    exact h.ofClient rfl rfl rfl rfl rfl fun d n hd hcopy => by cases hd; cases hcopy
  | @count d batch hdrain hphase => exact h.endRound d batch rfl rfl
  | finish hdrain hphase hfinish =>
    obtain ⟨client, message, hsent, rfl⟩ := finish_withAck hfinish
    exact h.withAck hsent
  | takePending hruns => exact h.ofClient rfl rfl rfl rfl rfl h.copying
  | frameAck hfree hack =>
    obtain ⟨client, message, hsent, rfl⟩ := frameAck_withAck hfree hack
    exact h.withAck hsent

end PosInv

/-! ## The rounds of a call -/

/-- The records that the call has copied and the steps that it has made, by
its phase.  All batches before the last one were full. -/
def DrainPhase.Rounds (copied iterations moves : Nat) : DrainPhase → Prop
  | .load => copied = drainBatchSize.toNat * iterations ∧ moves ≤ 5 * iterations
  | .copy _ => ∃ full, iterations = full + 1 ∧ copied = drainBatchSize.toNat * full ∧
    moves + 4 ≤ 5 * iterations
  | .account batch => ∃ full, iterations = full + 1 ∧
    copied = drainBatchSize.toNat * full + batch.length ∧
    batch.length ≤ drainBatchSize.toNat ∧ moves + 3 ≤ 5 * iterations
  | .push batch => ∃ full, iterations = full + 1 ∧
    copied = drainBatchSize.toNat * full + batch.length ∧
    batch.length ≤ drainBatchSize.toNat ∧ moves + 2 ≤ 5 * iterations
  | .count batch => ∃ full, iterations = full + 1 ∧
    copied = drainBatchSize.toNat * full + batch.length ∧
    batch.length ≤ drainBatchSize.toNat ∧ moves + 1 ≤ 5 * iterations
  | .finish => True

namespace LoopSystem

/-- A call in progress. -/
structure InProgress (s : LoopSystem) (d : RingDrain) : Prop where
  localTail : s.system.client.localTail.toNat = s.start + s.copied
  acked : s.system.client.lastAckedTail.toNat = s.acked
  total : d.total.toNat = s.copied
  rounds : d.phase.Rounds s.copied s.iterations s.moves
  shadowed : s.shadow = true → ∀ batch, d.phase ≠ .push batch ∧ d.phase ≠ .count batch

/-- The invariant of the machine. -/
structure LoopInv (s : LoopSystem) : Prop where
  base : PosInv s.system
  acked_le : s.acked ≤ s.start
  credit : s.start + s.copied ≤ s.acked + s.system.capacity.toNat
  iterations : drainBatchSize.toNat * (s.iterations - 1) ≤ s.copied
  moves : s.moves ≤ 5 * s.iterations
  drain : ∀ d, s.system.drain = some d → s.InProgress d

namespace LoopInv

variable {s t : LoopSystem} {d : RingDrain}

/-- The count of the rounds, in the phase of the call. -/
theorem roundsOf (h : LoopInv s) (hdrain : s.system.drain = some d) {phase : DrainPhase}
    (hphase : d.phase = phase) : phase.Rounds s.copied s.iterations s.moves :=
  hphase ▸ (h.drain d hdrain).rounds

/-- A step beside the call, or behind it. -/
theorem frame (h : LoopInv s) {system : RingSystem} (hbase : PosInv system)
    (hcapacity : system.capacity = s.system.capacity)
    (hdrain : ∀ d, system.drain = some d → s.system.drain = some d ∧
      system.client.localTail = s.system.client.localTail ∧
      system.client.lastAckedTail = s.system.client.lastAckedTail) :
    LoopInv { s with system := system } := by
  refine ⟨hbase, h.acked_le, ?_, h.iterations, h.moves, ?_⟩
  · show s.start + s.copied ≤ s.acked + system.capacity.toNat
    rw [hcapacity]
    exact h.credit
  · intro d hd
    obtain ⟨hold, hlocal, hacked⟩ := hdrain d hd
    have hprogress := h.drain d hold
    refine ⟨?_, ?_, hprogress.total, hprogress.rounds, hprogress.shadowed⟩
    · show system.client.localTail.toNat = _
      rw [hlocal]
      exact hprogress.localTail
    · show system.client.lastAckedTail.toNat = _
      rw [hacked]
      exact hprogress.acked

/-- A new call. -/
theorem began (h : LoopInv s) {system : RingSystem} (shadow : Bool) (hbase : PosInv system)
    (hcapacity : system.capacity = s.system.capacity)
    (hlocal : system.client.localTail = s.system.client.localTail)
    (hacked : system.client.lastAckedTail = s.system.client.lastAckedTail)
    (hdrain : ∀ d, system.drain = some d → d.total = 0 ∧ d.phase = .load) :
    LoopInv (s.began system shadow) := by
  have hle := h.base.local_le
  have hcredit := h.base.accepted_le
  refine ⟨hbase, h.base.acked_le, ?_, Nat.le_refl _, Nat.le_refl _, ?_⟩
  · show s.system.client.localTail.toNat + 0 ≤
      s.system.client.lastAckedTail.toNat + system.capacity.toNat
    rw [hcapacity]
    omega
  · intro d hd
    obtain ⟨htotal, hphase⟩ := hdrain d hd
    refine ⟨congrArg UInt64.toNat hlocal, congrArg UInt64.toNat hacked, ?_, ?_, ?_⟩
    · rw [htotal]
      rfl
    · rw [hphase]
      exact ⟨rfl, Nat.le_refl _⟩
    · intro _ batch
      rw [hphase]
      exact ⟨nofun, nofun⟩

theorem loadHead (h : LoopInv s) (hdrain : s.system.drain = some d) (hphase : d.phase = .load)
    (n : UInt64) (hbase : PosInv (s.system.loadHead d n)) :
    LoopInv (s.after (s.system.loadHead d n) .load) := by
  have hprogress := h.drain d hdrain
  obtain ⟨hcopied, hmoves⟩ := h.roundsOf hdrain hphase
  refine ⟨hbase, h.acked_le, h.credit, Nat.le_of_eq hcopied.symm, ?_, ?_⟩
  · show s.moves + 1 ≤ 5 * (s.iterations + 1)
    omega
  intro e he
  obtain rfl := Option.some.inj he
  refine ⟨hprogress.localTail, hprogress.acked, hprogress.total, ?_, ?_⟩
  · show (if n == 0 then DrainPhase.finish else .copy n).Rounds s.copied (s.iterations + 1)
      (s.moves + 1)
    split
    · trivial
    · exact ⟨s.iterations, rfl, hcopied, by omega⟩
  · intro _ batch
    show (if n == 0 then DrainPhase.finish else .copy n) ≠ .push batch ∧
      (if n == 0 then DrainPhase.finish else .copy n) ≠ .count batch
    split <;> exact ⟨nofun, nofun⟩

/-- A batch uses up credit, and only the records that it copies. -/
theorem copyBatch (h : LoopInv s) (hdrain : s.system.drain = some d) {n : UInt64}
    (hphase : d.phase = .copy n) : LoopInv (s.after (s.system.copyBatch d n) .copy) := by
  have hprogress := h.drain d hdrain
  obtain ⟨full, hiterations, hcopied, hmoves⟩ := h.roundsOf hdrain hphase
  obtain ⟨hsum, hbase⟩ := h.base.copyBatch hdrain hphase
  have hlimit := (h.base.copying d n hdrain hphase).2
  have hadded : (s.after (s.system.copyBatch d n) .copy).copied = s.copied + n.toNat := by
    show s.copied + (s.system.client.localTail + n - s.system.client.localTail).toNat = _
    rw [UInt64.add_comm, UInt64.add_sub_cancel]
  have hlocal := hprogress.localTail
  have hend : (s.system.client.localTail + n).toNat ≤ s.system.accepted.length :=
    hbase.local_le
  have hcredit := h.base.accepted_le
  have hacked := hprogress.acked
  have hlt := h.base.ring.head_lt
  have htotal := hprogress.total
  refine ⟨hbase, h.acked_le, ?_, ?_, ?_, ?_⟩
  · rw [hadded]
    show s.start + (s.copied + n.toNat) ≤ s.acked + s.system.capacity.toNat
    omega
  · rw [hadded]
    exact h.iterations.trans (Nat.le_add_right _ _)
  · show s.moves + 1 ≤ 5 * s.iterations
    omega
  intro e he
  obtain rfl := Option.some.inj he
  refine ⟨?_, hacked, ?_, ?_, ?_⟩
  · rw [hadded]
    show (s.system.client.localTail + n).toNat = s.start + (s.copied + n.toNat)
    omega
  · rw [hadded]
    show (d.total + n).toNat = s.copied + n.toNat
    rw [UInt64.toNat_add, Nat.mod_eq_of_lt (by omega), htotal]
  · rw [hadded]
    show ∃ full, _
    have hlength : (copySlots s.system.bridge.ring s.system.client.localTail n).length =
        n.toNat := by
      rw [copySlots, List.length_map, List.length_range]
    refine ⟨full, hiterations, ?_, ?_, ?_⟩
    · rw [hlength, hcopied]
    · rw [hlength]
      exact hlimit
    · show s.moves + 1 + 3 ≤ 5 * s.iterations
      omega
  · exact fun _ _ => ⟨fun h => (by cases h), fun h => (by cases h)⟩

/-- A step of a round behind its copy, which moves no position. -/
theorem ofBatch (h : LoopInv s) (hdrain : s.system.drain = some d) {system : RingSystem}
    (phase : DrainPhase) (hbase : PosInv system)
    (hcapacity : system.capacity = s.system.capacity)
    (hlocal : system.client.localTail = s.system.client.localTail)
    (hacked : system.client.lastAckedTail = s.system.client.lastAckedTail)
    (hmoves : s.moves + 1 ≤ 5 * s.iterations)
    (hnext : system.drain = some { d with phase := phase })
    (hrounds : phase.Rounds s.copied s.iterations (s.moves + 1))
    (hshadowed : s.shadow = true → ∀ batch, phase ≠ .push batch ∧ phase ≠ .count batch) :
    LoopInv { s with system := system, moves := s.moves + 1 } := by
  have hprogress := h.drain d hdrain
  refine ⟨hbase, h.acked_le, ?_, h.iterations, hmoves, ?_⟩
  · show s.start + s.copied ≤ s.acked + system.capacity.toNat
    rw [hcapacity]
    exact h.credit
  intro e he
  have he : system.drain = some e := he
  rw [hnext] at he
  obtain rfl := Option.some.inj he
  refine ⟨?_, ?_, hprogress.total, hrounds, hshadowed⟩
  · show system.client.localTail.toNat = _
    rw [hlocal]
    exact hprogress.localTail
  · show system.client.lastAckedTail.toNat = _
    rw [hacked]
    exact hprogress.acked

/-- The end of a round: the last batch, or the next round. -/
theorem nextRound {batch : List Record} {full : Nat} (hiterations : s.iterations = full + 1)
    (hcopied : s.copied = drainBatchSize.toNat * full + batch.length)
    (hlimit : batch.length ≤ drainBatchSize.toNat) (hmoves : s.moves + 1 ≤ 5 * s.iterations) :
    (if batch.length < drainBatchSize.toNat then DrainPhase.finish else .load).Rounds
      s.copied s.iterations (s.moves + 1) := by
  split
  · trivial
  · refine ⟨?_, hmoves⟩
    rw [hcopied, hiterations, Nat.mul_succ]
    omega

/-- Every step of `ringMachine` keeps the invariant. -/
theorem system (h : LoopInv s) {label : RingLabel} {system : RingSystem}
    (hallowed : (s.shadow && label.ofBatch) = false)
    (hstep : RingStep s.system label system) (hlt : system.attempts.length + 1 < 2 ^ 64) :
    LoopInv (s.after system label) := by
  have hbase := h.base.step hstep hlt
  have hcapacity := hstep.window.1
  have hnotShadow : label.ofBatch = true → s.shadow = false := by
    intro hbatch
    simpa [hbatch] using hallowed
  cases hstep with
  | deliver hchannel hallowed =>
    rw [RingSystem.deliver_eq] at hbase hcapacity ⊢
    exact h.frame hbase hcapacity fun d hd => ⟨hd, rfl, rfl⟩
  | lockUrgent hsignalled hfree =>
    exact h.began false hbase hcapacity rfl rfl fun d hd => by cases hd; exact ⟨rfl, rfl⟩
  | lockFrame hfree =>
    exact h.began false hbase hcapacity rfl rfl fun d hd => by cases hd; exact ⟨rfl, rfl⟩
  | load hdrain hphase havailable => exact h.loadHead hdrain hphase _ hbase
  | copy hdrain hphase => exact h.copyBatch hdrain hphase
  | @account d batch nowNs hdrain hphase =>
    obtain ⟨full, hiterations, hcopied, hlimit, hmoves⟩ := h.roundsOf hdrain hphase
    obtain ⟨seen, ages, receipts, hclient⟩ :=
      accountBatch_frame s.system.client d.reason batch nowNs
    have hlocal : (s.system.account d batch nowNs).client.localTail =
        s.system.client.localTail := by
      rw [RingSystem.account, hclient]
    have hacked : (s.system.account d batch nowNs).client.lastAckedTail =
        s.system.client.lastAckedTail := by
      rw [RingSystem.account, hclient]
    have hfalse := hnotShadow rfl
    refine h.ofBatch hdrain (.push batch) hbase hcapacity hlocal hacked (by omega) rfl
      ⟨full, hiterations, hcopied, hlimit, by omega⟩ ?_
    intro htrue
    rw [hfalse] at htrue
    cases htrue
  | @push d batch client hdrain hphase hpush =>
    obtain ⟨full, hiterations, hcopied, hlimit, hmoves⟩ := h.roundsOf hdrain hphase
    obtain ⟨queue, hqueue, rfl⟩ := pushPending_frame hpush
    have hfalse := hnotShadow rfl
    refine h.ofBatch hdrain (.count batch) hbase hcapacity rfl rfl (by omega) rfl
      ⟨full, hiterations, hcopied, hlimit, by omega⟩ ?_
    intro htrue
    rw [hfalse] at htrue
    cases htrue
  | @count d batch hdrain hphase =>
    obtain ⟨full, hiterations, hcopied, hlimit, hmoves⟩ := h.roundsOf hdrain hphase
    refine h.ofBatch hdrain _ hbase hcapacity rfl rfl hmoves rfl
      (nextRound hiterations hcopied hlimit hmoves) ?_
    intro _ other
    split <;> exact ⟨fun h => (by cases h), fun h => (by cases h)⟩
  | finish hdrain hphase hfinish =>
    obtain ⟨client, message, hsent, rfl⟩ := RingSystem.finish_withAck hfinish
    exact h.frame hbase hcapacity fun d hd => by cases hd
  | frameAck hfree hack =>
    obtain ⟨client, message, hsent, rfl⟩ := RingSystem.frameAck_withAck hfree hack
    exact h.frame hbase hcapacity fun d hd => by cases hd
  | publish | announce | gone | reconnect | readUrgent | takePending =>
    exact h.frame hbase hcapacity fun d hd => ⟨hd, rfl, rfl⟩

theorem countShadow (h : LoopInv s) (hdrain : s.system.drain = some d) {batch : List Record}
    (hphase : d.phase = .account batch) : LoopInv (s.countShadow d batch) := by
  obtain ⟨full, hiterations, hcopied, hlimit, hmoves⟩ := h.roundsOf hdrain hphase
  have hbase : PosInv (s.countShadow d batch).system := h.base.endRound d batch rfl rfl
  refine h.ofBatch hdrain _ hbase rfl rfl rfl (by omega) rfl
    (nextRound hiterations hcopied hlimit (by omega)) ?_
  intro _ other
  split <;> exact ⟨nofun, nofun⟩

theorem receive (h : LoopInv s) {acceptEager : Bool} {nowNs : UInt64}
    {message : BridgeMessage} {client : Client}
    (hreceive : receiveMessage s.system.client acceptEager nowNs message = some client) :
    LoopInv { s with system := { s.system with client := client } } := by
  obtain ⟨hlocal, hacked⟩ := receiveMessage_frame hreceive
  have hbase : PosInv { s.system with client := client } :=
    h.base.ofClient rfl rfl rfl hlocal hacked h.base.copying
  exact h.frame hbase rfl fun d hd => ⟨hd, hlocal, hacked⟩

/-- Every step keeps the invariant. -/
theorem step (h : LoopInv s) {label : LoopLabel} (hstep : LoopStep s label t)
    (hlt : t.system.attempts.length + 1 < 2 ^ 64) : LoopInv t := by
  cases hstep with
  | system hallowed hstep =>
    rw [after_system] at hlt
    exact h.system hallowed hstep hlt
  | @lockShadow reason acknowledgeNow hfree =>
    have hbase : PosInv (s.system.lock .frame reason acknowledgeNow) :=
      h.base.ofClient rfl rfl rfl rfl rfl fun d n hd hcopy => by cases hd; cases hcopy
    exact h.began true hbase rfl rfl rfl fun d hd => by cases hd; exact ⟨rfl, rfl⟩
  | countShadow hdrain hphase => exact h.countShadow hdrain hphase
  | receive hreceive => exact h.receive hreceive

/-- In its loop the call can always go on, unless the process dies because
it has no memory for the queue. -/
theorem goesOn (h : LoopInv s) (hdrain : s.system.drain = some d) (hphase : d.phase ≠ .finish) :
    (∃ label t, loopMachine.step s label = some t ∧ t.moves = s.moves + 1) ∨
      ∃ batch, d.phase = .push batch ∧ pushPending s.system.client batch = none := by
  have hdrainStep : ∀ label, (s.shadow && label.ofBatch) = false →
      (∀ r, ringStep r label = match r.drain with
        | some d => drainStep r d label
        | none => none) →
      loopMachine.step s (.system label) =
        (drainStep s.system d label).map fun system => s.after system label := by
    intro label hallowed hring
    show loopStep s (.system label) = _
    rw [loopStep, hallowed, if_neg Bool.false_ne_true]
    show (ringStep s.system label).map _ = _
    rw [hring, hdrain]
  have hshadowed := (h.drain d hdrain).shadowed
  cases hp : d.phase with
  | finish => exact absurd hp hphase
  | load =>
    obtain ⟨n, hn, -⟩ := h.base.available
    refine .inl ⟨.system .load, s.after (s.system.loadHead d n) .load, ?_, rfl⟩
    rw [hdrainStep .load (Bool.and_false s.shadow) fun _ => rfl]
    unfold drainStep
    simp only [hp, hn, Option.map_some]
  | copy n =>
    refine .inl ⟨.system .copy, s.after (s.system.copyBatch d n) .copy, ?_, rfl⟩
    rw [hdrainStep .copy (Bool.and_false s.shadow) fun _ => rfl]
    unfold drainStep
    simp only [hp, Option.map_some]
  | account batch =>
    cases hshadow : s.shadow with
    | true =>
      refine .inl ⟨.countShadow, s.countShadow d batch, ?_, rfl⟩
      show loopStep s .countShadow = _
      simp only [loopStep, hdrain, hp, hshadow, if_true]
    | false =>
      refine .inl ⟨.system (.account 0), s.after (s.system.account d batch 0) (.account 0),
        ?_, rfl⟩
      rw [hdrainStep (.account 0) (by rw [hshadow]; rfl) fun _ => rfl]
      unfold drainStep
      simp only [hp, Option.map_some]
  | push batch =>
    have hshadow : s.shadow = false := by
      by_contra htrue
      rw [Bool.not_eq_false] at htrue
      exact (hshadowed htrue batch).1 hp
    cases hpush : pushPending s.system.client batch with
    | none => exact .inr ⟨batch, rfl, hpush⟩
    | some client =>
      refine .inl ⟨.system .push, s.after (s.system.pushBatch d batch client) .push, ?_, rfl⟩
      rw [hdrainStep .push (by rw [hshadow]; rfl) fun _ => rfl]
      unfold drainStep
      simp only [hp, hpush, Option.map_some]
  | count batch =>
    have hshadow : s.shadow = false := by
      by_contra htrue
      rw [Bool.not_eq_false] at htrue
      exact (hshadowed htrue batch).2 hp
    refine .inl ⟨.system .count, s.after (s.system.countBatch d batch) .count, ?_, rfl⟩
    rw [hdrainStep .count (by rw [hshadow]; rfl) fun _ => rfl]
    unfold drainStep
    simp only [hp, Option.map_some]

end LoopInv

end LoopSystem

/-! ## Runs -/

theorem LoopStep.attempts_le {s t : LoopSystem} {label : LoopLabel} (h : LoopStep s label t) :
    s.system.attempts.length + 1 ≤ t.system.attempts.length + 1 := by
  cases h with
  | system hallowed hsystem =>
    rw [LoopSystem.after_system]
    exact Nat.succ_le_succ hsystem.attempts_extend.length_le
  | lockShadow hfree => exact Nat.le_refl _
  | countShadow hdrain hphase => exact Nat.le_refl _
  | receive hreceive => exact Nat.le_refl _

theorem loopMachine_mono {s t : LoopSystem} {label : LoopLabel}
    (hstep : loopMachine.step s label = some t) :
    s.system.attempts.length + 1 ≤ t.system.attempts.length + 1 :=
  (loopStep_cases hstep).attempts_le

/-- A client that has not drained yet satisfies the invariant. -/
theorem loopInv_initial (x : ClientStart) (hlt : x.attempts.length + 1 < 2 ^ 64) :
    (LoopSystem.initial x.ringState).LoopInv :=
  ⟨(x.ringInv hlt).posInv, Nat.le_refl _, Nat.zero_le _, Nat.le_refl _, Nat.le_refl _,
    fun d hd => by cases hd⟩

/-- The invariant along a run. -/
theorem loopInv_run (x : ClientStart) {labels : List LoopLabel} {s : LoopSystem}
    (hrun : loopMachine.run (.initial x.ringState) labels = some s)
    (hlt : s.system.attempts.length + 1 < 2 ^ 64) : s.LoopInv := by
  have hmono : ∀ u label v, loopMachine.step u label = some v →
      u.system.attempts.length + 1 ≤ v.system.attempts.length + 1 :=
    fun _ _ _ hstep => loopMachine_mono hstep
  have hstart : x.attempts.length + 1 ≤ s.system.attempts.length + 1 :=
    Machine.run_mono hmono hrun
  refine Machine.run_invariant_below LoopSystem.LoopInv
    (fun u => u.system.attempts.length + 1) hmono ?_
    (loopInv_initial x (Nat.lt_of_le_of_lt hstart hlt)) hrun hlt
  intro u label v hu hv hstep
  exact hu.step (loopStep_cases hstep) hv

/-- The bounds of the last call of `drain_ring`, over or in progress. -/
structure DrainBounded (s : LoopSystem) : Prop where
  copied : s.copied ≤ s.acked + s.system.capacity.toNat - s.start
  credit : s.acked + s.system.capacity.toNat - s.start ≤ s.system.capacity.toNat
  iterations : s.iterations ≤ s.system.capacity.toNat / drainBatchSize.toNat + 1
  moves : s.moves ≤ 5 * (s.system.capacity.toNat / drainBatchSize.toNat + 1)
  total : ∀ d, s.system.drain = some d → d.total.toNat = s.copied
  goesOn : ∀ d, s.system.drain = some d → d.phase ≠ .finish →
    (∃ label t, loopMachine.step s label = some t ∧ t.moves = s.moves + 1) ∨
      ∃ batch, d.phase = .push batch ∧ pushPending s.system.client batch = none

/-- Whatever the bridge publishes and takes from the channel between the
steps of a drain, the drain stays in its bounds. -/
theorem drain_ring_ends (x : ClientStart) {labels : List LoopLabel} {s : LoopSystem}
    (hrun : loopMachine.run (.initial x.ringState) labels = some s)
    (hlt : s.system.attempts.length + 1 < 2 ^ 64) : DrainBounded s := by
  have hinv := loopInv_run x hrun hlt
  have hcredit := hinv.credit
  have hacked := hinv.acked_le
  have hcopied : s.copied ≤ s.system.capacity.toNat := by omega
  have hiterations : s.iterations ≤ s.system.capacity.toNat / drainBatchSize.toNat + 1 := by
    have hfull : s.iterations - 1 ≤ s.system.capacity.toNat / drainBatchSize.toNat := by
      rw [Nat.le_div_iff_mul_le (by decide), Nat.mul_comm]
      exact hinv.iterations.trans hcopied
    omega
  exact ⟨by omega, by omega, hiterations,
    hinv.moves.trans (Nat.mul_le_mul_left 5 hiterations), fun d hd => (hinv.drain d hd).total,
    fun d hd hphase => hinv.goesOn hd hphase⟩

/-- A record is published before a shadow drain, and one behind its head
load. -/
theorem drain_ring_ends_shadow :
    ∃ s, loopMachine.run (.initial (ClientStart.fresh .eagerThread 64 rfl).ringState)
      [.system (.publish 0 0 (blankRecord 0 0)), .system (.announce .done .done .done),
        .lockShadow .frameRing true, .system .load, .system (.publish 0 0 (blankRecord 0 0)),
        .system .copy, .countShadow] = some s ∧
      s.copied = 1 ∧ s.iterations = 1 ∧ DrainBounded s := by
  have hrun : loopMachine.run (.initial (ClientStart.fresh .eagerThread 64 rfl).ringState)
      [.system (.publish 0 0 (blankRecord 0 0)), .system (.announce .done .done .done),
        .lockShadow .frameRing true, .system .load, .system (.publish 0 0 (blankRecord 0 0)),
        .system .copy, .countShadow] = some _ := rfl
  exact ⟨_, hrun, rfl, rfl, drain_ring_ends _ hrun (by decide)⟩

end Hfior
