import Hfior.AckChannel
import Hfior.Client.Start

/-!
# Reclamation across device reconnects

The bridge and the latency client, under any policy, with the FIFO socket
between them.  Each side has a copy of the generation: a reconnect moves the
copy of the bridge and sends a DEVICE_STATE message, and the client adopts
the generation when it reads the message.  Only the eager-thread policy
reads the socket after the start.

An ACK that carries an old generation is rejected, and
`send_ack_if_needed` sends nothing more for the same local tail.  So a ring
policy reclaims nothing after the first reconnect
(`tail_frozen_after_reconnect`).

`ackCurrent` is the condition that the ACK to be delivered carries the
generation of the bridge.  In runs that meet it, a client reclaims all it has
read, if it skips no unread record at its start or has something to
acknowledge (`reclaimed_of_ackCurrent`).
-/

namespace Hfior

/-- The bridge and the client at the two ends of the control socket. -/
structure Link where
  bridge : Bridge
  client : Client
  /-- The ACKs in flight, oldest first. -/
  toBridge : List AckMessage
  /-- The messages of the bridge that the client has not read. -/
  toClient : List BridgeMessage
  /-- All publication attempts. -/
  attempts : List Attempt

namespace Link

def head (s : Link) : UInt64 := s.bridge.ring.producer.head

def tail (s : Link) : UInt64 := s.bridge.ring.consumer.tail

def accepted (s : Link) : List Record := acceptedRecords s.attempts

/-- The client behind its start. -/
def initial (x : ClientStart) : Link where
  bridge := x.bridge
  client := .start x.policy x.generation x.position
  toBridge := []
  toClient := x.unread
  attempts := x.attempts

/-! ## The bridge -/

def publish (s : Link) (env : PublishEnv) (record : Record) : Link :=
  let p := publishRecord s.bridge env record
  { s with
    bridge := p.bridge
    toClient := s.toClient ++ (p.eager.map BridgeMessage.eagerRecord).toList
    attempts := s.attempts ++ [p.attempt] }

def loseDevice (s : Link) (send urgent : IoResult) : Link :=
  let gone := markDeviceGone s.bridge send urgent
  { s with
    bridge := gone.1
    toClient := s.toClient ++ (gone.2.map BridgeMessage.deviceState).toList }

def reconnect (s : Link) (fd : Int32) (send urgent : IoResult) : Link :=
  let next := tryReconnectDevice s.bridge fd send urgent
  { s with
    bridge := next.2.1
    toClient := s.toClient ++ (next.2.2.map BridgeMessage.deviceState).toList }

/-- The bridge takes the oldest ACK from the socket. -/
def deliver (s : Link) (ack : AckMessage) (rest : List AckMessage)
    (nowNs : UInt64) (urgent : IoResult) : Link :=
  { s with
    bridge := (handleControlMessage s.bridge (.ok ack.bytes) nowNs urgent).bridge
    toBridge := rest }

theorem deliver_eq (s : Link) (ack : AckMessage) (rest : List AckMessage)
    (nowNs : UInt64) (urgent : IoResult) :
    s.deliver ack rest nowNs urgent = { s with
      bridge := handleAck (countControlMessage s.bridge) ack nowNs urgent
      toBridge := rest } := by
  rw [deliver, handleControlMessage_ackBytes]

/-! ## The client -/

/-- The eager policy drains the ring as a shadow. -/
def shadow (s : Link) : Bool := s.client.policy == .eagerThread

/-- One round of a `drain_ring`. -/
def round (s : Link) (reason : ReceiptReason) (nowNs : UInt64) : Option Link := do
  let client ← drainRound s.client s.bridge.ring reason s.shadow nowNs
  some { s with client := client }

/-- `send_ack_if_needed`. -/
def sendAck (s : Link) (send : IoResult) : Option Link := do
  let (client, message) ← sendAckIfNeeded s.client send
  some { s with client := client, toBridge := s.toBridge ++ message.toList }

/-- The eager client takes the oldest message from the socket. -/
def receive (s : Link) (message : BridgeMessage) (rest : List BridgeMessage)
    (nowNs : UInt64) : Option Link := do
  let client ← receiveMessage s.client true nowNs message
  some { s with client := client, toClient := rest }

end Link

/-! ## The machine -/

inductive LinkLabel where
  | publish (env : PublishEnv) (record : Record)
  | gone (send urgent : IoResult)
  | reconnect (fd : Int32) (send urgent : IoResult)
  | deliver (nowNs : UInt64) (urgent : IoResult)
  | round (reason : ReceiptReason) (nowNs : UInt64)
  | ack (send : IoResult)
  | receive (nowNs : UInt64)
deriving DecidableEq

/-- One step.  The ring policies have no step that reads the socket. -/
def linkStep (s : Link) : LinkLabel → Option Link
  | .publish env record => some (s.publish env record)
  | .gone send urgent => some (s.loseDevice send urgent)
  | .reconnect fd send urgent => some (s.reconnect fd send urgent)
  | .deliver nowNs urgent => match s.toBridge with
    | ack :: rest => some (s.deliver ack rest nowNs urgent)
    | [] => none
  | .round reason nowNs => s.round reason nowNs
  | .ack send => s.sendAck send
  | .receive nowNs => match s.toClient with
    | message :: rest =>
      if s.client.policy == .eagerThread then s.receive message rest nowNs else none
    | [] => none

def linkMachine : Machine Link LinkLabel where
  step := linkStep

namespace Link

variable {s t : Link}

/-- The condition on a step: an ACK that is delivered carries the generation
of the bridge. -/
def ackCurrent (s : Link) : LinkLabel → Bool
  | .deliver _ _ => match s.toBridge with
    | ack :: _ => ack.generation == s.bridge.generation
    | [] => true
  | _ => true

/-- The client has acknowledged all that is in the ring, it has read what
its policy reads, and the bridge has processed every datagram. -/
structure Settled (s : Link) : Prop where
  read : s.client.localTail = s.head
  acknowledged : s.client.lastAckedTail = s.client.localTail
  received : s.client.policy = .eagerThread → s.toClient = []
  delivered : s.toBridge = []

end Link

/-- The machine whose steps meet the condition. -/
def currentAckMachine : Machine Link LinkLabel :=
  linkMachine.guard fun s label => s.ackCurrent label = true

/-! ## The invariant -/

/-- The positions are in order, and the last acknowledged tail mirrors the
tail of the ring: the two are equal once every ACK is delivered.  Only a
client that starts behind unread records and has sent no ACK has no such
mirror. -/
structure LinkInv (x : ClientStart) (s : Link) : Prop where
  ring : Represents s.bridge.ring s.accepted
  acks : AcksInOrder s.tail.toNat s.toBridge s.client.lastAckedTail.toNat
  acked_le : s.client.lastAckedTail.toNat ≤ s.client.localTail.toNat
  local_le : s.client.localTail.toNat ≤ s.accepted.length
  mirror : lastAck s.tail s.toBridge = s.client.lastAckedTail ∨
    x.position ≠ x.bridge.ring.consumer.tail ∧ s.client.lastAckedTail = x.position

namespace LinkInv

open Link

variable {x : ClientStart} {s t : Link}

/-- Only the bridge and its messages change, and the window does not. -/
private theorem link_bridge_aux (h : LinkInv x s) {b : Bridge}
    (hb : SameWindow s.bridge.ring b.ring) (toClient : List BridgeMessage) :
    LinkInv x { s with bridge := b, toClient := toClient } where
  ring := h.ring.sameWindow hb
  acks := by
    show AcksInOrder b.ring.consumer.tail.toNat _ _
    rw [hb.tail]
    exact h.acks
  acked_le := h.acked_le
  local_le := h.local_le
  mirror := by
    show lastAck b.ring.consumer.tail _ = _ ∨ _
    rw [hb.tail]
    exact h.mirror

theorem publish (h : LinkInv x s) (env : PublishEnv) (record : Record)
    (hlt : (s.publish env record).accepted.length < 2 ^ 64) :
    LinkInv x (s.publish env record) := by
  have htail := publishRecord_consumer_tail s.bridge env record
  refine ⟨represents_publishRecord h.ring env record hlt, ?_, h.acked_le,
    h.local_le.trans acceptedRecords_prefix_append.length_le, ?_⟩
  · show AcksInOrder (publishRecord s.bridge env
      record).bridge.ring.consumer.tail.toNat _ _
    rw [htail]
    exact h.acks
  · show lastAck (publishRecord s.bridge env
      record).bridge.ring.consumer.tail _ = _ ∨ _
    rw [htail]
    exact h.mirror

theorem reconnect (h : LinkInv x s) (fd : Int32) (send urgent : IoResult) :
    LinkInv x (s.reconnect fd send urgent) := by
  rcases tryReconnectDevice_cases s.bridge send urgent fd with hquiet | hnext
  · exact h.link_bridge_aux hquiet.window _
  · exact h.link_bridge_aux hnext.window _

/-- An ACK of the current generation is accepted, since its position is in
order. -/
theorem deliver (h : LinkInv x s) {ack : AckMessage} {rest : List AckMessage}
    (hchannel : s.toBridge = ack :: rest)
    (hcurrent : ack.generation = s.bridge.generation) (nowNs : UInt64)
    (urgent : IoResult) : LinkInv x (s.deliver ack rest nowNs urgent) := by
  have hring : Represents (countControlMessage s.bridge).ring s.accepted :=
    h.ring.sameWindow ⟨rfl, rfl, rfl, rfl⟩
  have hacks := h.acks
  rw [hchannel] at hacks
  have hvalid : ackValid (countControlMessage s.bridge) ack = true :=
    (ackValid_iff hring).2 ⟨hcurrent, hacks.head_bounds.1,
      hacks.head_bounds.2.trans (h.acked_le.trans h.local_le)⟩
  have htail := handleAck_tail_of_valid hvalid nowNs urgent
  have hmirror := h.mirror
  rw [hchannel] at hmirror
  rw [deliver_eq]
  refine ⟨represents_handleAck hring ack nowNs urgent, ?_, h.acked_le, h.local_le, ?_⟩
  · show AcksInOrder (handleAck (countControlMessage s.bridge) ack nowNs
      urgent).ring.consumer.tail.toNat _ _
    rw [htail]
    exact hacks.accept
  · show lastAck (handleAck (countControlMessage s.bridge) ack nowNs
      urgent).ring.consumer.tail rest = _ ∨ _
    rw [htail]
    exact hmirror

theorem round (h : LinkInv x s) {reason : ReceiptReason} {nowNs : UInt64}
    (hround : s.round reason nowNs = some t) : LinkInv x t := by
  obtain ⟨client, hclient, ht⟩ := Option.bind_eq_some_iff.1 hround
  obtain rfl := Option.some.inj ht
  obtain ⟨n, hn, hsum, hread⟩ := ringReadSnapshot_eq h.ring
    (h.acks.tail_le.trans h.acked_le) h.local_le drainBatchSize
  obtain ⟨hlocal, hacked⟩ := drainRound_frame hread hclient
  have hle := h.acked_le
  have hhi := h.local_le
  refine ⟨h.ring, ?_, ?_, ?_, ?_⟩
  · show AcksInOrder _ _ client.lastAckedTail.toNat
    rw [hacked]
    exact h.acks
  · show client.lastAckedTail.toNat ≤ client.localTail.toNat
    rw [hlocal, hacked]
    omega
  · show client.localTail.toNat ≤ s.accepted.length
    rw [hlocal]
    omega
  · show _ = client.lastAckedTail ∨ _ ∧ client.lastAckedTail = _
    rw [hacked]
    exact h.mirror

theorem sendAck (h : LinkInv x s) {send : IoResult}
    (hack : s.sendAck send = some t) : LinkInv x t := by
  obtain ⟨⟨client, message⟩, hclient, ht⟩ := Option.bind_eq_some_iff.1 hack
  obtain rfl := Option.some.inj ht
  rcases sendAckIfNeeded_cases hclient with ⟨-, rfl, rfl⟩ | ⟨rfl, n, rfl⟩
  · refine ⟨h.ring, ?_, h.acked_le, h.local_le, ?_⟩
    · show AcksInOrder _ (s.toBridge ++ []) _
      rw [List.append_nil]
      exact h.acks
    · show lastAck _ (s.toBridge ++ []) = _ ∨ _
      rw [List.append_nil]
      exact h.mirror
  · exact ⟨h.ring, h.acks.send ⟨s.client.generation, s.client.localTail⟩ h.acked_le,
      Nat.le_refl _, h.local_le, .inl (lastAck_append _ _ _)⟩

theorem receive (h : LinkInv x s) {message : BridgeMessage}
    {rest : List BridgeMessage} {nowNs : UInt64}
    (hreceive : s.receive message rest nowNs = some t) : LinkInv x t := by
  obtain ⟨client, hclient, ht⟩ := Option.bind_eq_some_iff.1 hreceive
  obtain rfl := Option.some.inj ht
  obtain ⟨hlocal, hacked⟩ := receiveMessage_frame hclient
  refine ⟨h.ring, ?_, ?_, ?_, ?_⟩
  · show AcksInOrder _ _ client.lastAckedTail.toNat
    rw [hacked]
    exact h.acks
  · show client.lastAckedTail.toNat ≤ client.localTail.toNat
    rw [hlocal, hacked]
    exact h.acked_le
  · show client.localTail.toNat ≤ s.accepted.length
    rw [hlocal]
    exact h.local_le
  · show _ = client.lastAckedTail ∨ _ ∧ client.lastAckedTail = _
    rw [hacked]
    exact h.mirror

/-- Every step that meets the condition keeps the invariant. -/
theorem step (h : LinkInv x s) {label : LinkLabel}
    (hstep : linkMachine.step s label = some t)
    (hcurrent : s.ackCurrent label = true) (hlt : t.accepted.length < 2 ^ 64) :
    LinkInv x t := by
  have hstep : linkStep s label = some t := hstep
  cases label with
  | publish env record =>
    obtain rfl := Option.some.inj hstep
    exact h.publish env record hlt
  | gone send urgent =>
    obtain rfl := Option.some.inj hstep
    exact h.link_bridge_aux (quiet_markDeviceGone s.bridge send urgent).window _
  | reconnect fd send urgent =>
    obtain rfl := Option.some.inj hstep
    exact h.reconnect fd send urgent
  | deliver nowNs urgent =>
    simp only [linkStep] at hstep
    split at hstep
    · rename_i ack rest hchannel
      obtain rfl := Option.some.inj hstep
      simp only [ackCurrent, hchannel, beq_iff_eq] at hcurrent
      exact h.deliver hchannel hcurrent nowNs urgent
    · cases hstep
  | round reason nowNs => exact h.round hstep
  | ack send => exact h.sendAck hstep
  | receive nowNs =>
    simp only [linkStep] at hstep
    split at hstep
    · split at hstep
      · exact h.receive hstep
      · cases hstep
    · cases hstep

theorem initial (x : ClientStart) (hlt : x.attempts.length + 1 < 2 ^ 64) :
    LinkInv x (.initial x) := by
  have hring := x.represents hlt
  have hlo := UInt64.le_iff_toNat_le.1 x.tail_le
  have hhi := UInt64.le_iff_toNat_le.1 x.le_head
  refine ⟨hring, AcksInOrder.nil_iff.2 hlo, Nat.le_refl _, hhi.trans_eq hring.head, ?_⟩
  by_cases hposition : x.position = x.bridge.ring.consumer.tail
  · exact .inl hposition.symm
  · exact .inr ⟨hposition, rfl⟩

/-- A settled client has reclaimed all that it has read. -/
theorem reclaimed (h : LinkInv x s) (hsettled : s.Settled)
    (hstart : x.position = x.bridge.ring.consumer.tail ∨ s.head ≠ x.position) :
    s.tail = s.head := by
  rcases h.mirror with hmirror | ⟨hskips, hacked⟩
  · rw [hsettled.delivered] at hmirror
    calc s.tail = s.client.lastAckedTail := hmirror
      _ = s.client.localTail := hsettled.acknowledged
      _ = s.head := hsettled.read
  · -- Nothing is acknowledged, so there is nothing behind the start.
    have hnothing : s.head = x.position := by
      calc s.head = s.client.localTail := hsettled.read.symm
        _ = s.client.lastAckedTail := hsettled.acknowledged.symm
        _ = x.position := hacked
    rcases hstart with hposition | hsome
    · exact absurd hposition hskips
    · exact absurd hnothing hsome

end LinkInv

/-- The accepted records only grow. -/
theorem linkMachine_mono {s t : Link} {label : LinkLabel}
    (hstep : linkMachine.step s label = some t) :
    s.attempts.length ≤ t.attempts.length := by
  have hstep : linkStep s label = some t := hstep
  cases label with
  | publish env record =>
    obtain rfl := Option.some.inj hstep
    exact (List.prefix_append _ _).length_le
  | gone send urgent | reconnect fd send urgent =>
    obtain rfl := Option.some.inj hstep
    exact Nat.le_refl _
  | deliver nowNs urgent =>
    simp only [linkStep] at hstep
    split at hstep
    · obtain rfl := Option.some.inj hstep
      rw [Link.deliver_eq]
    · cases hstep
  | round reason nowNs =>
    obtain ⟨client, -, ht⟩ := Option.bind_eq_some_iff.1 hstep
    obtain rfl := Option.some.inj ht
    exact Nat.le_refl _
  | ack send =>
    obtain ⟨sent, -, ht⟩ := Option.bind_eq_some_iff.1 hstep
    obtain rfl := Option.some.inj ht
    exact Nat.le_refl _
  | receive nowNs =>
    simp only [linkStep] at hstep
    split at hstep
    · split at hstep
      · obtain ⟨client, -, ht⟩ := Option.bind_eq_some_iff.1 hstep
        obtain rfl := Option.some.inj ht
        exact Nat.le_refl _
      · cases hstep
    · cases hstep

/-- In every run whose delivered ACKs all carry the generation of the bridge,
a settled client has reclaimed all that it has read, if it skipped no unread
record at its start or there is a record behind its start. -/
theorem reclaimed_of_ackCurrent (x : ClientStart) {labels : List LinkLabel}
    {s : Link} (hrun : currentAckMachine.run (.initial x) labels = some s)
    (hlt : s.attempts.length + 1 < 2 ^ 64) (hsettled : s.Settled)
    (hstart : x.position = x.bridge.ring.consumer.tail ∨ s.head ≠ x.position) :
    s.tail = s.head := by
  have hmono : ∀ u label v, currentAckMachine.step u label = some v →
      u.attempts.length + 1 ≤ v.attempts.length + 1 := by
    intro u label v hstep
    exact Nat.succ_le_succ (linkMachine_mono (Machine.guard_step.1 hstep).2)
  have hkeep : ∀ u label v, LinkInv x u → v.attempts.length + 1 < 2 ^ 64 →
      currentAckMachine.step u label = some v → LinkInv x v := by
    intro u label v hu hv hstep
    obtain ⟨hcurrent, hstep⟩ := Machine.guard_step.1 hstep
    have haccepted : v.accepted.length ≤ v.attempts.length :=
      acceptedRecords_length_le
    exact hu.step hstep hcurrent (by omega)
  have hgrown : x.attempts.length + 1 ≤ s.attempts.length + 1 :=
    Machine.run_mono (μ := fun u : Link => u.attempts.length + 1) hmono hrun
  have hinv : LinkInv x (.initial x) :=
    LinkInv.initial x (Nat.lt_of_le_of_lt hgrown hlt)
  exact (Machine.run_invariant_below (LinkInv x) (fun u => u.attempts.length + 1)
    hmono hkeep hinv hrun hlt).reclaimed hsettled hstart

/-- One publication, which the client drains, acknowledges and sees
reclaimed. -/
def reclaimOne : List LinkLabel :=
  [.publish quietEnv (blankRecord 0 HFIOR_RECORD_MOTION), .round .frameRing 0,
    .ack .done, .deliver 0 .done]

/-- The device is lost and opened again. -/
def loseAndReconnect : List LinkLabel :=
  [.gone .done .done, .reconnect 7 .done .done]

theorem reclaimed_before_reconnect :
    ∃ s, currentAckMachine.run (.initial (ClientStart.fresh .hfiorLate 64 rfl))
        (reclaimOne ++ loseAndReconnect) = some s ∧ s.tail = s.head := by
  have hrun : currentAckMachine.run (.initial (ClientStart.fresh .hfiorLate 64 rfl))
      (reclaimOne ++ loseAndReconnect) = some _ := rfl
  refine ⟨_, hrun, reclaimed_of_ackCurrent _ hrun (by decide) ?_ (.inl rfl)⟩
  exact ⟨rfl, rfl, fun h => absurd h (by decide), rfl⟩

/-- A ring client after a reconnect: its ACK carries the old generation, so
the tail stays behind, and there is nothing more to acknowledge. -/
theorem tail_frozen_after_reconnect :
    ∃ s, linkMachine.run (.initial (ClientStart.fresh .hfiorLate 64 rfl))
        (loseAndReconnect ++ reclaimOne) = some s ∧
      s.Settled ∧ s.tail ≠ s.head := by
  refine ⟨_, rfl, ⟨rfl, rfl, fun h => absurd h (by decide), rfl⟩, ?_⟩
  decide

end Hfior
