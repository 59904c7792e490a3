import Hfior.Input.Report
import Hfior.RingClient.Loss

/-!
# The verdict of the harness

`benchmarks/harness/run_once.sh` runs a bridge and a client, and it accepts
the run by a list of checks on the summary of the client and on the report of
the bridge.  `runOnceValid` is the list.

For a ring policy `harness_valid_iff` says what the verdict means: the client
has read every record that the ring accepted, exactly once and in order, no
attempt was dropped by the time of the summary, and everything is
acknowledged.
-/

namespace Hfior

/-! ## The checks -/

/-- The counters of `summary.json` that the checks read. -/
structure ClientSummary where
  policy : ClientPolicy
  producerRingDrops : UInt64
  producerEagerDrops : UInt64
  sequenceGaps : UInt64
  duplicateOrReordered : UInt64
  ringRecords : UInt64
  shadowRingRecords : UInt64
  eagerRecords : UInt64
deriving DecidableEq, Repr

/-- `write_summary`, as far as the checks read it. -/
def writeSummary (c : Client) (ring : RingHeader) : ClientSummary where
  policy := c.policy
  producerRingDrops := ring.producer.droppedNewest
  producerEagerDrops := ring.producer.eagerSendDrops
  sequenceGaps := c.stats.ledger.sequenceGaps
  duplicateOrReordered := c.stats.ledger.duplicateOrReordered
  ringRecords := c.stats.ringRecords
  shadowRingRecords := c.stats.shadowRingRecords
  eagerRecords := c.stats.eagerRecords

/-- The records of the path that the policy uses. -/
def ClientSummary.actualRecords (s : ClientSummary) : UInt64 :=
  if s.policy = .eagerThread then s.eagerRecords else s.ringRecords

/-- The checks of `run_once.sh`.  A file that cannot be read leaves nothing
to check. -/
def runOnceValid (clientRc bridgeRc : Int) (summary : Option ClientSummary)
    (report : Option BridgeReport) : Bool :=
  match summary, report with
  | some s, some b =>
    clientRc == 0 && bridgeRc == 0 && s.producerRingDrops == 0 && s.producerEagerDrops == 0 &&
      s.sequenceGaps == 0 && s.duplicateOrReordered == 0 && b.invalidAcknowledgements == 0 &&
      b.ringDepth == 0 && s.actualRecords == b.recordsPublished &&
      (if s.policy = .eagerThread then s.shadowRingRecords ≤ b.recordsPublished else true)
  | _, _ => false

/-! ## The count of the published records -/

/-- `stats.records_published` is the head. -/
def PublishedCounted (b : Bridge) : Prop :=
  b.stats.recordsPublished = b.ring.producer.head

theorem publishedCounted_attempt {b : Bridge} (h : PublishedCounted b)
    (beginNs endNs : UInt64) (record : Record) :
    PublishedCounted (publishAttempt b beginNs endNs record).2 := by
  cases hpublished : (publishAttempt b beginNs endNs record).1.published with
  | true =>
    obtain ⟨trace, hframe⟩ := publishAttempt_of_published b beginNs endNs record hpublished
    rw [hframe]
    exact congrArg (· + 1) h
  | false =>
    obtain ⟨trace, hframe⟩ := publishAttempt_of_dropped b beginNs endNs record hpublished
    rw [hframe]
    exact h

theorem publishedCounted_writeUrgent {b : Bridge} (h : PublishedCounted b) (urgent : IoResult) :
    PublishedCounted (writeUrgent b urgent) := by
  cases urgent <;> exact h

theorem publishedCounted_announce {b : Bridge} (h : PublishedCounted b) (a : Attempt)
    (send dropUrgent urgent : IoResult) :
    PublishedCounted (announce b a send dropUrgent urgent).1 := by
  obtain ⟨sent, dropped, written, urgentFd, stop, hsent⟩ :=
    announce_announced b a send dropUrgent urgent
  rw [hsent]
  exact h

theorem publishedCounted_deviceState {b : Bridge} (h : PublishedCounted b) (flags : UInt16)
    (send urgent : IoResult) : PublishedCounted (sendDeviceState b flags send urgent).1 := by
  unfold sendDeviceState
  split
  · exact h
  · exact publishedCounted_writeUrgent h urgent

theorem publishedCounted_handleAck {b : Bridge} (h : PublishedCounted b) (ack : AckMessage)
    (nowNs : UInt64) (urgent : IoResult) : PublishedCounted (handleAck b ack nowNs urgent) := by
  have hinvalid : PublishedCounted (countInvalidAck b) := h
  unfold handleAck
  split
  · exact h
  · exact publishedCounted_writeUrgent hinvalid urgent

theorem publishedCounted_reconnect {b : Bridge} (h : PublishedCounted b) (fd : Int32)
    (send urgent : IoResult) : PublishedCounted (tryReconnectDevice b fd send urgent).2.1 := by
  have hbump : PublishedCounted (bumpGeneration { b with inputFd := fd, sourceReady := true }) := h
  unfold tryReconnectDevice openInputDevice
  repeat' split
  all_goals first
    | exact h
    | exact publishedCounted_deviceState hbump _ send urgent

theorem RingStep.publishedCounted {s t : RingSystem} {label : RingLabel}
    (hstep : RingStep s label t) (h : PublishedCounted s.bridge) : PublishedCounted t.bridge := by
  cases hstep with
  | publish hidle => exact publishedCounted_attempt h _ _ _
  | announce hattempt hallowed => exact publishedCounted_announce h _ _ _ _
  | deliver hchannel hallowed =>
    rw [RingSystem.deliver_eq]
    have hcount : PublishedCounted (countControlMessage s.bridge) := h
    exact publishedCounted_handleAck hcount _ _ _
  | gone hallowed =>
    have hclosed : PublishedCounted (closeInputDevice s.bridge) := h
    exact publishedCounted_deviceState hclosed _ _ _
  | reconnect hallowed => exact publishedCounted_reconnect h _ _ _
  | finish hdrain hphase hfinish =>
    obtain ⟨client, message, -, rfl⟩ := RingSystem.finish_withAck hfinish
    exact h
  | frameAck hfree hack =>
    obtain ⟨client, message, -, rfl⟩ := RingSystem.frameAck_withAck hfree hack
    exact h
  | _ => exact h

theorem publishedCounted_run {s t : RingSystem} {labels : List RingLabel}
    (h : PublishedCounted s.bridge) (hrun : ringMachine.run s labels = some t) :
    PublishedCounted t.bridge :=
  Machine.run_invariant (fun u : RingSystem => PublishedCounted u.bridge)
    (fun _ _ _ hu hstep => (ringStep_cases hstep).publishedCounted hu) h hrun

/-- A start on a bridge that has counted what it published. -/
structure CountedStart extends ClientStart where
  counted : PublishedCounted bridge

/-- Every bridge program counts from zero, so each of its bridges will do. -/
def CountedStart.ofProgram (x : ClientStart) {size features nowNs : UInt64}
    {device : DeviceIdentity} {o : AdmittedOptions} {ops : DoubleOps} {ring : RingHeader}
    {clientFd inputFd : Int32}
    (hinit : initializeMapping size o.capacity features device 1 nowNs = .ok ring)
    (hopen : o.config.devicePath = true → 0 ≤ inputFd) {steps : List ProgramStep} {p : Program}
    (hrun : (programMachine o ops).run (.boot o ring clientFd inputFd) steps = some p)
    (hlt : p.attempts.length + 1 < 2 ^ 64) (hbridge : x.bridge = p.bridge.toBridge) :
    CountedStart where
  toClientStart := x
  counted := by
    rw [hbridge]
    exact (ledgersAgree_program hinit hopen hrun hlt).published

/-! ## What the verdict means -/

/-- The client has read everything, once and in order, and nothing is left
over. -/
structure IntactRun (s t : RingSystem) : Prop where
  /-- The records of the client are all that the ring ever accepted. -/
  complete : s.accounted = t.accepted
  /-- No attempt in front of the summary was dropped. -/
  undropped : ∀ a ∈ s.attempts, a.published = true
  undroppedEager : s.bridge.ring.producer.eagerSendDrops = 0
  validAcks : t.bridge.stats.invalidAcknowledgements = 0
  acknowledged : t.tail = t.head

section
variable {s t : RingSystem}

theorem droppedNewest_eq_zero_iff (h : Numbered s.bridge.ring s.attempts) :
    s.bridge.ring.producer.droppedNewest = 0 ↔ ∀ a ∈ s.attempts, a.published = true := by
  rw [← UInt64.toNat_inj, h.dropped, UInt64.toNat_zero, List.countP_eq_zero]
  simp

/-- Without drops the records are numbered by their positions. -/
theorem sequence_of_undropped (h : Numbered s.bridge.ring s.attempts)
    (hall : ∀ a ∈ s.attempts, a.published = true) (i : Nat) (hi : i < s.accepted.length) :
    s.accepted[i].sequence.toNat = i + 1 := by
  have haccepted : s.accepted = s.attempts.map Attempt.record := by
    rw [RingSystem.accepted, acceptedRecords, List.filter_eq_self.2 hall]
  have hi' : i < s.attempts.length := by
    rwa [haccepted, List.length_map] at hi
  simp only [haccepted, List.getElem_map]
  exact h.sequence i hi'

/-- Without drops there are no gaps. -/
theorem gaps_of_undropped (h : RingInv s) (hall : ∀ a ∈ s.attempts, a.published = true) :
    s.client.stats.ledger.sequenceGaps = 0 := by
  rw [← UInt64.toNat_inj, h.lossAccounted.gaps, droppedBetween, UInt64.toNat_zero,
    List.countP_eq_zero]
  intro a ha
  simp [hall a ha]

/-- A client between two drains has counted what it has read. -/
theorem ringRecords_eq (h : RingInv s) (hfree : s.drain = none) :
    s.client.stats.ringRecords.toNat = s.accounted.length ∧
      s.accounted = slice s.accepted s.start s.client.localTail.toNat := by
  have haccounted : s.accounted = s.drained := h.accounted_of_free hfree
  have hcounted := h.client.counted
  have hlength : s.drained.length = s.client.localTail.toNat - s.start :=
    slice_length h.client.local_le
  rw [RingSystem.phase_of_free hfree] at hcounted
  refine ⟨?_, haccounted⟩
  rw [haccounted, hlength, ← hcounted]
  rfl

/-- All records are read exactly if there are as many as were published in
the end. -/
theorem complete_iff (h : RingInv s) (hfree : s.drain = none)
    (hgrow : s.attempts <+: t.attempts) :
    s.accounted.length = t.accepted.length ↔ s.accounted = t.accepted := by
  obtain ⟨-, hslice⟩ := ringRecords_eq h hfree
  constructor
  · intro hlength
    obtain ⟨rest, hrest⟩ := hgrow
    have haccepted : t.accepted = s.accepted ++ acceptedRecords rest := by
      rw [RingSystem.accepted, ← hrest, acceptedRecords, List.filter_append, List.map_append]
      rfl
    have hlocal := h.client.local_le
    have hstart := h.client.start_le
    rw [hslice, slice_length hlocal, haccepted, List.length_append] at hlength
    have hzero : s.start = 0 := by omega
    have hall : s.client.localTail.toNat = s.accepted.length := by omega
    have hnone : acceptedRecords rest = [] := List.length_eq_zero_iff.1 (by omega)
    rw [hslice, haccepted, hnone, hzero, hall, List.append_nil]
    simp [slice]
  · intro heq
    rw [heq]

end

/-- For every ring policy, every run of the bridge and of the two threads of
the client up to the summary, and every run behind it up to the report, in any
interleaving and with fewer than 2^64 - 1 attempts: if both programs exit without
an error, the harness accepts the run if and only if it is intact.  The
records of an intact run are numbered from 1 without a gap. -/
theorem harness_valid_iff (x : CountedStart)
    {labels rest : List RingLabel} {s t : RingSystem}
    (hrun : ringMachine.run x.ringState labels = some s) (hfree : s.drain = none)
    (hpolicy : s.client.policy ≠ .eagerThread)
    (hrest : ringMachine.run s rest = some t) (hlt : t.attempts.length + 1 < 2 ^ 64)
    {o : BridgeOptions} {b : InputBridge} (hb : b.toBridge = t.bridge) :
    (runOnceValid 0 0 (some (writeSummary s.client s.bridge.ring)) (some (writeStats o b)) =
      true ↔ IntactRun s t) ∧
    (IntactRun s t → ∀ i, (hi : i < s.accounted.length) →
      s.accounted[i].sequence.toNat = i + 1) := by
  have hgrow : s.attempts <+: t.attempts :=
    Machine.run_invariant (fun u : RingSystem => s.attempts <+: u.attempts)
      (fun _ _ _ hu hstep => hu.trans (ringStep_cases hstep).attempts_extend)
      (List.prefix_refl _) hrest
  have hs : RingInv s := x.ringInv_run hrun
    (Nat.lt_of_le_of_lt (Nat.succ_le_succ hgrow.length_le) hlt)
  have ht : RingInv t := Hfior.ringInv_run hs hrest hlt
  have hpublished : b.stats.recordsPublished.toNat = t.accepted.length := by
    have hcount : PublishedCounted t.bridge :=
      publishedCounted_run (publishedCounted_run x.counted hrun) hrest
    rw [hb, hcount, ht.ring.head]
  obtain ⟨hrecords, hslice⟩ := ringRecords_eq hs hfree
  have hactual : (writeSummary s.client s.bridge.ring).actualRecords =
      s.client.stats.ringRecords := if_neg hpolicy
  have hcomplete : s.client.stats.ringRecords = b.stats.recordsPublished ↔
      s.accounted = t.accepted := by
    rw [← UInt64.toNat_inj, hrecords, hpublished]
    exact complete_iff hs hfree hgrow
  have hdepth : ringDepth b.ring = 0 ↔ t.tail = t.head := by
    rw [hb, ringDepth]
    constructor
    · intro hzero
      show t.bridge.ring.consumer.tail = t.bridge.ring.producer.head
      rw [← UInt64.sub_add_cancel t.bridge.ring.producer.head t.bridge.ring.consumer.tail, hzero,
        UInt64.zero_add]
    · intro hsame
      have hsame : t.bridge.ring.consumer.tail = t.bridge.ring.producer.head := hsame
      rw [hsame, UInt64.sub_self]
  have hdrops := droppedNewest_eq_zero_iff hs.numbered
  refine ⟨?_, ?_⟩
  · have hinvalid : (writeStats o b).invalidAcknowledgements =
        t.bridge.stats.invalidAcknowledgements := by
      rw [← hb]
      rfl
    simp only [runOnceValid, Bool.and_eq_true, beq_iff_eq, hactual, hinvalid]
    constructor
    · rintro ⟨⟨⟨⟨⟨⟨⟨⟨-, hring⟩, heager⟩, -⟩, -⟩, hacks⟩, hzero⟩, hsame⟩, -⟩
      exact ⟨hcomplete.1 hsame, hdrops.1 hring, heager, hacks, hdepth.1 hzero⟩
    · intro h
      exact ⟨⟨⟨⟨⟨⟨⟨⟨⟨trivial, trivial⟩, hdrops.2 h.undropped⟩, h.undroppedEager⟩,
        gaps_of_undropped hs h.undropped⟩, hs.client.ledger.duplicates⟩, h.validAcks⟩,
        hdepth.2 h.acknowledged⟩, hcomplete.2 h.complete⟩, if_neg hpolicy⟩
  · intro h i hi
    have haccepted : s.accounted = s.accepted := by
      have hle : s.accounted.length ≤ s.accepted.length := by
        rw [hslice, slice_length hs.client.local_le]
        exact (Nat.sub_le _ _).trans hs.client.local_le
      have hextends : s.accepted <+: t.accepted := by
        obtain ⟨rest, hrest⟩ := hgrow
        rw [RingSystem.accepted, RingSystem.accepted, ← hrest]
        simp [acceptedRecords]
      rw [h.complete] at hle ⊢
      exact (hextends.eq_of_length_le hle).symm
    simp only [haccepted] at hi ⊢
    exact sequence_of_undropped hs.numbered h.undropped i hi

/-- The session on a device, behind its start barrier. -/
def startedProgram : Program :=
  ((programMachine deviceOptions .exact).run (.boot deviceOptions (freshBridge 64).ring 5 6)
    (deviceSteps.take 2)).get rfl

/-- A client of this session at the head of the ring. -/
def startedClient : CountedStart :=
  .ofProgram
    { bridge := startedProgram.bridge.toBridge
      attempts := []
      policy := .hfiorLate
      generation := 1
      unread := []
      position := 0
      reached := ⟨startedProgram.bridge.toBridge, mappingSize 64, 0, 0, 64, ⟨[], 0, 0, 0, 0⟩, [],
        rfl, rfl⟩
      tail_le := by decide
      le_head := by decide }
    (show initializeMapping (mappingSize 64) deviceOptions.capacity 0 ⟨[], 0, 0, 0, 0⟩ 1 0 =
      .ok (freshBridge 64).ring from rfl)
    (by decide) (Option.some_get _).symm (by decide) rfl

theorem harness_valid_iff_one_record :
    ∃ s, ringMachine.run startedClient.ringState (publishNow ++ drainNow) = some s ∧
      s.accounted.length = 1 ∧
      (runOnceValid 0 0 (some (writeSummary s.client s.bridge.ring))
        (some (writeStats deviceOptions.toBridgeOptions (.boot s.bridge ⟨0, false, 0, 0, 0⟩))) =
          true ↔ IntactRun s s) ∧
      IntactRun s s := by
  have hrun : ringMachine.run startedClient.ringState (publishNow ++ drainNow) = some _ := rfl
  have hvalid := (harness_valid_iff startedClient hrun rfl (by decide) Machine.run_nil (by decide)
    (o := deviceOptions.toBridgeOptions) (b := .boot _ ⟨0, false, 0, 0, 0⟩) rfl).1
  exact ⟨_, hrun, rfl, hvalid, hvalid.1 (by decide)⟩

end Hfior
