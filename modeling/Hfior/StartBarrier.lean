import Hfior.Bridge.Barrier
import Hfior.RingClient.Invariant

/-!
# The start barrier

The handshake of a client with a bridge on a fresh ring: SET_MODE, START,
STARTED, and then the head load of `synchronize_start`.  Behind START the
bridge is in its main loop and may publish, and the client chooses its first
position only when it gets to the head load.

`lossless_iff` is the result: the records accepted after START all reach the
client if and only if no publication falls between the two.

The fields `barrier` and `early` are ghosts.
-/

namespace Hfior

/-- Where the bridge is: in the start barrier, or in the main loop. -/
inductive BridgePhase where
  | barrier (modeReceived : Bool)
  | serves
deriving DecidableEq, Repr

/-- Where the client is: in `send_mode`, in the parts of
`synchronize_start`, or behind it. -/
inductive ClientPhase where
  | sendsMode | sendsStart | waits | loads | runs
deriving DecidableEq, Repr

structure StartSystem where
  /-- The bridge, and the client once it runs. -/
  ring : RingSystem
  bridgePhase : BridgePhase
  clientPhase : ClientPhase
  /-- The handshake datagrams to the bridge. -/
  toBridge : List (List UInt8)
  /-- The answers to the client. -/
  toClient : List MessageHeader
  /-- The number of records accepted when the bridge processed START. -/
  barrier : Nat
  /-- The publications between START and the head load. -/
  early : Nat

/-- The mode that `send_mode` asks for. -/
def bridgeMode (policy : ClientPolicy) : UInt32 :=
  if policy = .eagerThread then HFIOR_MODE_EAGER_THREAD else HFIOR_MODE_HFIOR

namespace StartSystem

/-- A client that has connected to a bridge, and has its hello. -/
def initial (b : Bridge) (policy : ClientPolicy) : StartSystem where
  ring := .initial b [] policy b.generation 0
  bridgePhase := .barrier false
  clientPhase := .sendsMode
  toBridge := []
  toClient := []
  barrier := 0
  early := 0

/-- `send_mode`. -/
def sendMode (s : StartSystem) (consumerHz : UInt32) : StartSystem :=
  let message : SetModeMessage := ⟨bridgeMode s.ring.client.policy, consumerHz, 0⟩
  { s with
    clientPhase := .sendsStart
    toBridge := s.toBridge ++ [message.bytes] }

/-- The send of `synchronize_start`. -/
def sendStart (s : StartSystem) : StartSystem :=
  { s with
    clientPhase := .waits
    toBridge := s.toBridge ++ [headerBytes HFIOR_MSG_START] }

/-- The bridge of the system is replaced. -/
def withBridge (s : StartSystem) (b : Bridge) : StartSystem :=
  { s with ring := { s.ring with bridge := b } }

/-- The barrier goes on. -/
def awaitStart (s : StartSystem) (b : Bridge) (modeReceived : Bool)
    (rest : List (List UInt8)) : StartSystem :=
  { s.withBridge b with bridgePhase := .barrier modeReceived, toBridge := rest }

/-- The barrier ends with a STARTED. -/
def serve (s : StartSystem) (b : Bridge) (reply : MessageHeader)
    (rest : List (List UInt8)) : StartSystem :=
  { s.withBridge b with
    bridgePhase := .serves
    toBridge := rest
    toClient := s.toClient ++ [reply]
    barrier := s.ring.accepted.length }

/-- The bridge takes a datagram in the start barrier. -/
def takeDatagram (s : StartSystem) (modeReceived : Bool) (datagram : List UInt8)
    (rest : List (List UInt8)) (armed : Bool) (send : IoResult) :
    Option StartSystem :=
  match barrierMessage s.ring.bridge modeReceived (.ok datagram) armed send with
  | .waiting b seen => some (s.awaitStart b seen rest)
  | .started b reply => some (s.serve b reply rest)
  | .failed | .stopped _ => none

/-- The client takes an answer, and waits on if it is not STARTED. -/
def takeAnswer (s : StartSystem) (answer : MessageHeader)
    (rest : List MessageHeader) : StartSystem :=
  { s with
    clientPhase := if answer.size == UInt32.ofNat sizeofMessageHeader &&
      answer.type == HFIOR_MSG_STARTED then .loads else .waits
    toClient := rest }

/-- The client of `synchronize_start` behind its head load. -/
def synchronize (r : RingSystem) : RingSystem :=
  { r with
    client := { r.client with localTail := r.head, lastAckedTail := r.head }
    start := r.head.toNat }

/-- The head load of `synchronize_start`. -/
def loadHead (s : StartSystem) : StartSystem :=
  { s with ring := synchronize s.ring, clientPhase := .runs }

end StartSystem

/-! ## The machine -/

/-- The steps of the bridge in its main loop. -/
def RingLabel.ofBridge : RingLabel → Bool
  | .publish _ _ _ | .announce _ _ _ | .deliver _ _ | .gone _ _
  | .reconnect _ _ _ => true
  | _ => false

def RingLabel.isPublish : RingLabel → Bool
  | .publish _ _ _ => true
  | _ => false

inductive StartLabel where
  | sendMode (consumerHz : UInt32)
  | sendStart
  | takeDatagram (armed : Bool) (send : IoResult)
  | takeAnswer
  | loadHead
  | ring (label : RingLabel)
deriving DecidableEq

namespace StartSystem

/-- The bridge serves behind the barrier, and the client runs behind its
head load. -/
def ringAllowed (s : StartSystem) (label : RingLabel) : Bool :=
  if label.ofBridge then s.bridgePhase == .serves else s.clientPhase == .runs

/-- A step of the bridge and the client behind the handshake. -/
def withRing (s : StartSystem) (label : RingLabel) (r : RingSystem) : StartSystem :=
  { s with
    ring := r
    early := if label.isPublish && s.clientPhase != .runs then s.early + 1
      else s.early }

end StartSystem

/-- One step.  A failed send ends the process, and so does a STOP. -/
def startStep (s : StartSystem) : StartLabel → Option StartSystem
  | .sendMode consumerHz =>
    if s.clientPhase = .sendsMode then some (s.sendMode consumerHz) else none
  | .sendStart => if s.clientPhase = .sendsStart then some s.sendStart else none
  | .takeDatagram armed send => match s.bridgePhase, s.toBridge with
    | .barrier modeReceived, datagram :: rest =>
      s.takeDatagram modeReceived datagram rest armed send
    | _, _ => none
  | .takeAnswer => match s.toClient with
    | answer :: rest =>
      if s.clientPhase = .waits then some (s.takeAnswer answer rest) else none
    | [] => none
  | .loadHead => if s.clientPhase = .loads then some s.loadHead else none
  | .ring label =>
    if s.ringAllowed label then (ringMachine.step s.ring label).map (s.withRing label)
    else none

def startMachine : Machine StartSystem StartLabel where
  step := startStep

namespace StartSystem

variable {s t : StartSystem}

/-- Every record accepted after the bridge processed START was returned by
one snapshot, in order, or is still ahead of the client. -/
def Lossless (s : StartSystem) : Prop :=
  s.ring.accounted ++ s.ring.phase.unaccounted ++
      s.ring.accepted.drop s.ring.client.localTail.toNat =
    s.ring.accepted.drop s.barrier

instance : Decidable s.Lossless := inferInstanceAs (Decidable (_ = _))

end StartSystem

/-- Before its head load the client has done nothing, and the window begins
at zero. -/
structure Untouched (r : RingSystem) : Prop where
  drain : r.drain = none
  channel : r.channel = []
  client : ∃ policy generation, r.client = .start policy generation 0
  taken : r.taken = []
  accounted : r.accounted = []
  tail : r.tail = 0

namespace Untouched

variable {r t : RingSystem}

/-- Another bridge with the same tail. -/
private theorem untouched_bridge_aux (h : Untouched r) (hdrain : t.drain = r.drain)
    (hchannel : t.channel = r.channel) (hclient : t.client = r.client)
    (htaken : t.taken = r.taken) (haccounted : t.accounted = r.accounted)
    (htail : t.tail = r.tail) : Untouched t where
  drain := hdrain.trans h.drain
  channel := hchannel.trans h.channel
  client := hclient ▸ h.client
  taken := htaken.trans h.taken
  accounted := haccounted.trans h.accounted
  tail := htail.trans h.tail

/-- The steps of the bridge leave the client alone, and without an ACK the
tail stays where it is. -/
theorem step (h : Untouched r) {label : RingLabel} (hstep : RingStep r label t)
    (hlabel : label.ofBridge = true) : Untouched t := by
  cases hstep with
  | publish hidle =>
    exact h.untouched_bridge_aux rfl rfl rfl rfl rfl (publishAttempt_tail _ _ _ _)
  | announce hattempt hallowed =>
    exact h.untouched_bridge_aux rfl rfl rfl rfl rfl
      (sameWindow_announce _ _ _ _ _).tail
  | deliver hchannel hallowed =>
    rw [h.channel] at hchannel
    cases hchannel
  | gone hallowed =>
    exact h.untouched_bridge_aux rfl rfl rfl rfl rfl
      (quiet_markDeviceGone r.bridge _ _).window.tail
  | @reconnect fd send urgent hallowed =>
    refine h.untouched_bridge_aux rfl rfl rfl rfl rfl ?_
    rcases tryReconnectDevice_cases r.bridge send urgent fd with hquiet | hnext
    · exact hquiet.window.tail
    · exact hnext.window.tail
  | _ => cases hlabel

/-- An untouched client may start at the head. -/
theorem synchronize (h : Untouched r) (hinv : RingInv r) :
    RingInv (StartSystem.synchronize r) := by
  obtain ⟨policy, generation, hclient⟩ := h.client
  have hhead : r.head.toNat = r.accepted.length := hinv.ring.head
  have hphase : (StartSystem.synchronize r).phase = .finish :=
    RingSystem.phase_of_free h.drain
  refine ⟨hinv.ring, hinv.numbered, hinv.announcing, ?_, ?_⟩
  · show AcksInOrder _ r.channel _
    rw [h.channel, AcksInOrder.nil_iff]
    exact UInt64.le_iff_toNat_le.1 hinv.ring.tail_le_head
  · refine ⟨Nat.le_refl _, Nat.le_of_eq hhead, Nat.le_refl _, ?_, ?_, ?_, ?_, ?_⟩
    · rw [hphase]
      show r.accounted ++ [] = slice _ r.head.toNat r.head.toNat
      rw [h.accounted, slice_self]
      rfl
    · rw [hphase]
      show r.taken.flatten ++ r.client.pending.records ++ [] =
        slice _ r.head.toNat r.head.toNat
      rw [h.taken, hclient, slice_self]
      rfl
    · rw [hphase]
      show r.client.stats.ringRecords.toNat + 0 = r.head.toNat - r.head.toNat
      rw [hclient, Nat.sub_self]
      rfl
    · show r.client.stats.ledger.Of r.accounted
      rw [h.accounted, hclient]
      exact Ledger.of_zero
    · intro d hd
      have hd : r.drain = some d := hd
      rw [h.drain] at hd
      cases hd

end Untouched

/-- The invariant of the handshake. -/
structure StartInv (s : StartSystem) : Prop where
  ring : RingInv s.ring
  barrier : s.barrier = 0
  fresh : ∀ seen, s.bridgePhase = .barrier seen → s.ring.attempts = []
  before : s.clientPhase ≠ .runs →
    Untouched s.ring ∧ (s.early = 0 ↔ s.ring.accepted = [])
  behind : s.clientPhase = .runs → (s.early = 0 ↔ s.ring.start = 0)

namespace StartInv

open StartSystem

variable {s t : StartSystem}

/-- A step of the handshake that touches neither the ring nor the bridge. -/
private theorem phase_aux (h : StartInv s) (hring : t.ring = s.ring)
    (hbridge : t.bridgePhase = s.bridgePhase) (hbarrier : t.barrier = s.barrier)
    (hearly : t.early = s.early) (hs : s.clientPhase ≠ .runs)
    (ht : t.clientPhase ≠ .runs) : StartInv t where
  ring := hring ▸ h.ring
  barrier := hbarrier.trans h.barrier
  fresh := by
    rw [hbridge, hring]
    exact h.fresh
  before := by
    intro _
    rw [hring, hearly]
    exact h.before hs
  behind := fun hruns => absurd hruns ht

/-- The datagrams of the barrier leave the ring alone. -/
theorem takeDatagram (h : StartInv s) {seen : Bool}
    (hphase : s.bridgePhase = .barrier seen) {datagram : List UInt8}
    {rest : List (List UInt8)} {armed : Bool} {send : IoResult}
    (hstep : s.takeDatagram seen datagram rest armed send = some t) :
    StartInv t := by
  have hframe := barrierMessage_ring s.ring.bridge seen (.ok datagram) armed send
  have hempty := h.fresh seen hphase
  -- Whatever the bridge is afterwards, its ring is the same.
  have hbridge : ∀ {b : Bridge}, b.ring = s.ring.bridge.ring →
      RingInv { s.ring with bridge := b } ∧ (s.clientPhase ≠ .runs →
        Untouched { s.ring with bridge := b }) := by
    intro b hring
    have hwindow : SameWindow s.ring.bridge.ring b.ring := by
      rw [hring]
      exact SameWindow.refl _
    have hledger : SameLedger s.ring.bridge.ring b.ring := by
      rw [hring]
      exact SameLedger.refl _
    refine ⟨h.ring.withBridge hwindow hledger h.ring.announcing, fun hs => ?_⟩
    exact (h.before hs).1.untouched_bridge_aux rfl rfl rfl rfl rfl hwindow.tail
  unfold StartSystem.takeDatagram at hstep
  split at hstep
  · rename_i b seen' hresult
    obtain rfl := Option.some.inj hstep
    rw [hresult] at hframe
    obtain ⟨hring, huntouched⟩ := hbridge hframe
    exact ⟨hring, h.barrier, fun _ _ => hempty,
      fun hs => ⟨huntouched hs, (h.before hs).2⟩, h.behind⟩
  · rename_i b reply hresult
    obtain rfl := Option.some.inj hstep
    rw [hresult] at hframe
    obtain ⟨hring, huntouched⟩ := hbridge hframe
    refine ⟨hring, ?_, fun _ _ => hempty,
      fun hs => ⟨huntouched hs, (h.before hs).2⟩, h.behind⟩
    show s.ring.accepted.length = 0
    rw [RingSystem.accepted, hempty]
    rfl
  · cases hstep
  · cases hstep

theorem loadHead (h : StartInv s) (hphase : s.clientPhase = .loads) :
    StartInv s.loadHead := by
  have hs : s.clientPhase ≠ .runs := by
    rw [hphase]
    decide
  obtain ⟨huntouched, hearly⟩ := h.before hs
  refine ⟨huntouched.synchronize h.ring, h.barrier, h.fresh,
    fun hne => absurd rfl hne, fun _ => ?_⟩
  show s.early = 0 ↔ s.ring.head.toNat = 0
  have hhead : s.ring.head.toNat = s.ring.accepted.length := h.ring.ring.head
  rw [hearly, hhead, List.length_eq_zero_iff]

/-- A publication before the head load: the first one is accepted. -/
theorem accepted_publish (h : StartInv s) (hs : s.clientPhase ≠ .runs)
    {beginNs endNs : UInt64} {record : Record} :
    (s.ring.publish beginNs endNs record).accepted ≠ [] := by
  obtain ⟨huntouched, -⟩ := h.before hs
  generalize ha : (publishAttempt s.ring.bridge beginNs endNs record).1 = a
  have haccepted : (s.ring.publish beginNs endNs record).accepted =
      acceptedRecords (s.ring.attempts ++ [a]) := by
    rw [← ha]
    rfl
  rw [haccepted]
  by_cases hempty : s.ring.accepted = []
  · have hpublished : a.published = true := by
      rw [← ha]
      refine publishAttempt_published h.ring.ring beginNs endNs record ?_
      obtain ⟨k, -, hk⟩ := exists_pow_of_isPowerOfTwoU32 h.ring.ring.pow2
      rw [hempty, hk]
      have := Nat.two_pow_pos k
      show 0 < _
      omega
    rw [acceptedRecords_append_of_published hpublished]
    simp
  · intro hnil
    have hgrow : s.ring.accepted <+: acceptedRecords (s.ring.attempts ++ [a]) :=
      acceptedRecords_prefix_append
    rw [hnil] at hgrow
    exact hempty (List.prefix_nil.1 hgrow)

/-- A step of the bridge before the head load. -/
theorem ringBefore (h : StartInv s) (hs : s.clientPhase ≠ .runs)
    {label : RingLabel} {r : RingSystem} (hlabel : label.ofBridge = true)
    (hserves : s.bridgePhase = .serves) (hstep : RingStep s.ring label r)
    (hlt : r.attempts.length + 1 < 2 ^ 64) : StartInv (s.withRing label r) := by
  obtain ⟨huntouched, hearly⟩ := h.before hs
  refine ⟨h.ring.step hstep hlt, h.barrier, ?_,
    fun _ => ⟨huntouched.step hstep hlabel, ?_⟩, fun hruns => absurd hruns hs⟩
  · intro seen hbarrier
    have hbarrier : s.bridgePhase = .barrier seen := hbarrier
    rw [hserves] at hbarrier
    cases hbarrier
  · show (if label.isPublish && s.clientPhase != .runs then s.early + 1
      else s.early) = 0 ↔ r.accepted = []
    have hne : (s.clientPhase != .runs) = true := bne_iff_ne.2 hs
    cases hstep with
    | publish hidle =>
      rw [hne]
      exact iff_of_false (Nat.succ_ne_zero _) (h.accepted_publish hs)
    | deliver hchannel hallowed =>
      rw [huntouched.channel] at hchannel
      cases hchannel
    | announce hattempt hallowed | gone hallowed | reconnect hallowed =>
      exact hearly
    | _ => cases hlabel

/-- A step behind the head load. -/
theorem ringBehind (h : StartInv s) (hs : s.clientPhase = .runs)
    {label : RingLabel} {r : RingSystem} (hallowed : s.ringAllowed label = true)
    (hstep : RingStep s.ring label r) (hlt : r.attempts.length + 1 < 2 ^ 64) :
    StartInv (s.withRing label r) := by
  refine ⟨h.ring.step hstep hlt, h.barrier, ?_, fun hne => absurd hs hne, fun _ => ?_⟩
  · -- In the barrier only the client may step.
    intro seen hbarrier
    have hbarrier : s.bridgePhase = .barrier seen := hbarrier
    show r.attempts = []
    rw [ringAllowed, hbarrier] at hallowed
    cases hstep with
    | publish | announce | deliver | gone | reconnect => cases hallowed
    | finish hdrain hphase hfinish =>
      obtain ⟨client, message, -, rfl⟩ := RingSystem.finish_withAck hfinish
      exact h.fresh seen hbarrier
    | frameAck hfree hack =>
      obtain ⟨client, message, -, rfl⟩ := RingSystem.frameAck_withAck hfree hack
      exact h.fresh seen hbarrier
    | _ => exact h.fresh seen hbarrier
  · show (if label.isPublish && s.clientPhase != .runs then s.early + 1
      else s.early) = 0 ↔ r.start = 0
    have hruns : (s.clientPhase != .runs) = false := by
      rw [hs]
      rfl
    rw [hruns, Bool.and_false, if_neg Bool.false_ne_true, hstep.start_eq]
    exact h.behind hs

/-- Every step keeps the invariant. -/
theorem step (h : StartInv s) {label : StartLabel}
    (hstep : startMachine.step s label = some t)
    (hlt : t.ring.attempts.length + 1 < 2 ^ 64) : StartInv t := by
  have hstep : startStep s label = some t := hstep
  cases label with
  | sendMode consumerHz =>
    simp only [startStep] at hstep
    split at hstep
    · rename_i hphase
      obtain rfl := Option.some.inj hstep
      exact h.phase_aux rfl rfl rfl rfl (by rw [hphase]; decide) nofun
    · cases hstep
  | sendStart =>
    simp only [startStep] at hstep
    split at hstep
    · rename_i hphase
      obtain rfl := Option.some.inj hstep
      exact h.phase_aux rfl rfl rfl rfl (by rw [hphase]; decide) nofun
    · cases hstep
  | takeDatagram armed send =>
    simp only [startStep] at hstep
    split at hstep
    · rename_i seen datagram rest hphase hchannel
      exact h.takeDatagram hphase hstep
    · cases hstep
  | takeAnswer =>
    simp only [startStep] at hstep
    split at hstep
    · rename_i answer rest hanswers
      split at hstep
      · rename_i hphase
        obtain rfl := Option.some.inj hstep
        refine h.phase_aux rfl rfl rfl rfl (by rw [hphase]; decide) ?_
        simp only [StartSystem.takeAnswer]
        split <;> decide
      · cases hstep
    · cases hstep
  | loadHead =>
    simp only [startStep] at hstep
    split at hstep
    · rename_i hphase
      obtain rfl := Option.some.inj hstep
      exact h.loadHead hphase
    · cases hstep
  | ring label =>
    simp only [startStep] at hstep
    split at hstep
    · rename_i hallowed
      obtain ⟨r, hr, rfl⟩ := Option.map_eq_some_iff.1 hstep
      have hr := ringStep_cases hr
      by_cases hs : s.clientPhase = .runs
      · exact h.ringBehind hs hallowed hr hlt
      · rw [ringAllowed] at hallowed
        split at hallowed
        · rename_i hlabel
          exact h.ringBefore hs hlabel (beq_iff_eq.1 hallowed) hr hlt
        · exact absurd (beq_iff_eq.1 hallowed) hs
    · cases hstep

/-- Behind the head load, nothing is lost if and only if nothing was
published early. -/
theorem lossless_iff (h : StartInv s) (hruns : s.clientPhase = .runs) :
    s.Lossless ↔ s.early = 0 := by
  have hc := h.ring.client
  have hsplit : s.ring.accounted ++ s.ring.phase.unaccounted ++
      s.ring.accepted.drop s.ring.client.localTail.toNat =
        s.ring.accepted.drop s.ring.start := by
    rw [hc.accounted, slice_append_drop hc.start_le]
  rw [Lossless, hsplit, h.barrier, h.behind hruns]
  constructor
  · intro hdrop
    have hlength := congrArg List.length hdrop
    rw [List.length_drop, List.length_drop] at hlength
    have hstart := hc.start_le.trans hc.local_le
    omega
  · intro hzero
    rw [hzero]

end StartInv

/-! ## Runs -/

/-- The attempts made so far are not taken back. -/
theorem startMachine_mono {s t : StartSystem} {label : StartLabel}
    (hstep : startMachine.step s label = some t) :
    s.ring.attempts.length + 1 ≤ t.ring.attempts.length + 1 := by
  have hstep : startStep s label = some t := hstep
  cases label with
  | sendMode consumerHz | sendStart | loadHead =>
    simp only [startStep] at hstep
    split at hstep
    · obtain rfl := Option.some.inj hstep
      exact Nat.le_refl _
    · cases hstep
  | takeDatagram armed send =>
    simp only [startStep] at hstep
    split at hstep
    · unfold StartSystem.takeDatagram at hstep
      split at hstep
      · obtain rfl := Option.some.inj hstep
        exact Nat.le_refl _
      · obtain rfl := Option.some.inj hstep
        exact Nat.le_refl _
      · cases hstep
      · cases hstep
    · cases hstep
  | takeAnswer =>
    simp only [startStep] at hstep
    split at hstep
    · split at hstep
      · obtain rfl := Option.some.inj hstep
        exact Nat.le_refl _
      · cases hstep
    · cases hstep
  | ring label =>
    simp only [startStep] at hstep
    split at hstep
    · obtain ⟨r, hr, rfl⟩ := Option.map_eq_some_iff.1 hstep
      exact ringMachine_mono hr
    · cases hstep

/-- A fresh ring satisfies the invariant. -/
theorem startInv_initial {b : Bridge} {size features nowNs : UInt64}
    {capacity : UInt32} {device : DeviceIdentity}
    (hinit : initializeMapping size capacity features device b.generation nowNs =
      .ok b.ring) (policy : ClientPolicy) : StartInv (.initial b policy) := by
  have hring := (represents_initializeMapping hinit).1
  have htail : b.ring.consumer.tail = 0 := by
    have := hring.tail_le
    exact UInt64.toNat_inj.1 (Nat.le_zero.1 this)
  have hlo : b.ring.consumer.tail ≤ 0 := by
    rw [htail]
    exact UInt64.le_refl _
  have hhi : (0 : UInt64) ≤ b.ring.producer.head :=
    UInt64.le_iff_toNat_le.2 (Nat.zero_le _)
  refine ⟨ringInv_initial hring (numbered_initializeMapping hinit) policy
    b.generation hlo hhi,
    rfl, fun _ _ => rfl, fun _ => ⟨⟨rfl, rfl, ⟨_, _, rfl⟩, rfl, rfl, htail⟩, ?_⟩, ?_⟩
  · exact iff_of_true rfl rfl
  · intro hruns
    cases hruns

/-- The steps of a handshake in which nothing goes wrong. -/
def handshake (consumerHz : UInt32) : List StartLabel :=
  [.sendMode consumerHz, .sendStart, .takeDatagram true .done,
    .takeDatagram true .done, .takeAnswer, .loadHead]

/-- The bridge behind a SET_MODE of its barrier. -/
def modeTaken (b : Bridge) (mode : UInt32) : Bridge :=
  { countControlMessage b with mode := mode }

/-- The bridge takes the first datagram of its queue. -/
theorem step_takeDatagram {s : StartSystem} {modeReceived : Bool} {datagram : List UInt8}
    {rest : List (List UInt8)} (hphase : s.bridgePhase = .barrier modeReceived)
    (hqueue : s.toBridge = datagram :: rest) (armed : Bool) (send : IoResult) :
    startMachine.step s (.takeDatagram armed send) =
      s.takeDatagram modeReceived datagram rest armed send := by
  simp only [startMachine, startStep, hphase, hqueue]

theorem takeDatagram_setMode (s : StartSystem) {m : SetModeMessage}
    (hmode : modeValid m.mode = true) (rest : List (List UInt8)) :
    s.takeDatagram false m.bytes rest true .done =
      some (s.awaitStart (modeTaken s.ring.bridge m.mode) true rest) := by
  rw [StartSystem.takeDatagram, barrierMessage_setMode _ _ _ _ hmode]
  rfl

theorem takeDatagram_start (s : StartSystem) (rest : List (List UInt8)) :
    s.takeDatagram true (headerBytes HFIOR_MSG_START) rest true .done =
      some (s.serve (countControlMessage s.ring.bridge) startedMessage rest) := by
  rw [StartSystem.takeDatagram, barrierMessage_start]

/-- The datagrams of the client take the bridge through its barrier, in the
mode that the policy asks for. -/
theorem handshake_completes (b : Bridge) (policy : ClientPolicy)
    (consumerHz : UInt32) :
    ∃ s, startMachine.run (.initial b policy) (handshake consumerHz) = some s ∧
      s.clientPhase = .runs ∧ s.ring.bridge.mode = bridgeMode policy := by
  have hmode : modeValid (bridgeMode policy) = true := by
    cases policy <;> rfl
  let sent := ((StartSystem.initial b policy).sendMode consumerHz).sendStart
  let armed := sent.awaitStart (modeTaken b (bridgeMode policy)) true
    [headerBytes HFIOR_MSG_START]
  let served := armed.serve (countControlMessage armed.ring.bridge) startedMessage []
  let message : SetModeMessage := ⟨bridgeMode policy, consumerHz, 0⟩
  have hqueue : sent.toBridge = [message.bytes, headerBytes HFIOR_MSG_START] := rfl
  have hset : startMachine.step sent (.takeDatagram true .done) = some armed := by
    rw [step_takeDatagram rfl hqueue, takeDatagram_setMode sent hmode]
    rfl
  have hstart : startMachine.step armed (.takeDatagram true .done) = some served := by
    rw [step_takeDatagram rfl rfl]
    exact takeDatagram_start armed []
  exact ⟨_, Machine.run_cons.2 ⟨_, rfl, Machine.run_cons.2 ⟨sent, rfl,
    Machine.run_cons.2 ⟨armed, hset, Machine.run_cons.2 ⟨served, hstart,
      Machine.run_cons.2 ⟨_, rfl, Machine.run_cons.2 ⟨_, rfl, rfl⟩⟩⟩⟩⟩⟩, rfl, rfl⟩

/-- On a fresh ring, a ring client gets every record accepted after START
exactly once, and begins at the first of them, if and only if the bridge
makes no publication between START and the head load of the client. -/
theorem start_barrier_lossless_iff {b : Bridge} {size features nowNs : UInt64}
    {capacity : UInt32} {device : DeviceIdentity}
    (hinit : initializeMapping size capacity features device b.generation nowNs =
      .ok b.ring) {policy : ClientPolicy} {labels : List StartLabel}
    {s : StartSystem} (hrun : startMachine.run (.initial b policy) labels = some s)
    (hlt : s.ring.attempts.length + 1 < 2 ^ 64) (hruns : s.clientPhase = .runs) :
    (s.Lossless ↔ s.early = 0) ∧ (s.ring.start = s.barrier ↔ s.early = 0) := by
  have hinv : StartInv s :=
    Machine.run_invariant_below StartInv (fun u => u.ring.attempts.length + 1)
      (fun _ _ _ hstep => startMachine_mono hstep)
      (fun _ _ _ hu hv hstep => hu.step hstep hv) (startInv_initial hinit policy)
      hrun hlt
  refine ⟨hinv.lossless_iff hruns, ?_⟩
  rw [hinv.barrier]
  exact (hinv.behind hruns).symm

/-- A publication in the middle of the handshake and one behind it. -/
def publishOnce : StartLabel :=
  .ring (.publish 0 0 (blankRecord 0 HFIOR_RECORD_MOTION))

theorem start_barrier_lossless_late :
    ∃ s, startMachine.run (.initial (freshBridge 64) .hfiorLate)
        (handshake 240 ++ [publishOnce]) = some s ∧
      ((s.Lossless ↔ s.early = 0) ∧ (s.ring.start = s.barrier ↔ s.early = 0)) ∧
      s.Lossless := by
  have hinit : initializeMapping (mappingSize 64) 64 0 ⟨[], 0, 0, 0, 0⟩
      (freshBridge 64).generation 0 = .ok (freshBridge 64).ring := rfl
  have hrun : startMachine.run (.initial (freshBridge 64) .hfiorLate)
      (handshake 240 ++ [publishOnce]) = some _ := rfl
  have hiff := start_barrier_lossless_iff hinit hrun (by decide) rfl
  exact ⟨_, hrun, hiff, hiff.1.2 rfl⟩

/-- The bridge publishes between START and the head load, and the record is
skipped: the client begins behind it. -/
theorem start_barrier_loses_early :
    ∃ s, startMachine.run (.initial (freshBridge 64) .hfiorLate)
        ((handshake 240).take 4 ++ [publishOnce] ++ (handshake 240).drop 4) =
          some s ∧
      s.clientPhase = .runs ∧ s.barrier = 0 ∧ s.ring.start = 1 ∧
      s.ring.accepted.length = 1 ∧ ¬ s.Lossless := by
  have hrun : startMachine.run (.initial (freshBridge 64) .hfiorLate)
      ((handshake 240).take 4 ++ [publishOnce] ++ (handshake 240).drop 4) = some _ := rfl
  refine ⟨_, hrun, by decide, by decide, by decide, by decide, ?_⟩
  intro hlossless
  exact absurd hlossless (by decide)

end Hfior
