import Hfior.RingClient.Invariant

/-!
# From the ring to the frames

`HandedOver` is what the ring client does with the accepted records: every
one of them is taken by a frame exactly once and in order.  In the middle of
a drain the batch on its way is the last part.

The ledger of the client is the result of `account_sequences` on the records
that it has seen (`accounts_run`), so it tells their order as well.

The two drainers never see an inconsistent ring, so no drain ends in
`die`.
-/

namespace Hfior

/-! ## The accounting -/

theorem Ledger.terminalSeen_append (records batch : List Record) :
    Ledger.terminalSeen (records ++ batch) =
      (Ledger.terminalSeen records || Ledger.terminalSeen batch) :=
  List.any_append

theorem accountBatch_ledger (c : Client) (reason : ReceiptReason) (batch : List Record)
    (nowNs : UInt64) :
    (accountBatch c reason batch nowNs).stats.ledger = c.stats.ledger.account batch ∧
      (accountBatch c reason batch nowNs).terminalSeen =
        (c.terminalSeen || Ledger.terminalSeen batch) := by
  simp only [accountBatch, logRecords]
  split <;> split <;> exact ⟨rfl, rfl⟩

/-- The ledger and the flag move when a batch is accounted, and nowhere
else. -/
theorem RingStep.account_cases {s t : RingSystem} {label : RingLabel}
    (hstep : RingStep s label t) :
    ∃ batch, t.client.stats.ledger = s.client.stats.ledger.account batch ∧
      t.client.terminalSeen = (s.client.terminalSeen || Ledger.terminalSeen batch) ∧
      t.accounted = s.accounted ++ batch := by
  have hnone : ∀ client : Client, client.stats.ledger = s.client.stats.ledger →
      client.terminalSeen = s.client.terminalSeen → ∃ batch,
        client.stats.ledger = s.client.stats.ledger.account batch ∧
          client.terminalSeen = (s.client.terminalSeen || Ledger.terminalSeen batch) ∧
            s.accounted = s.accounted ++ batch :=
    fun client hledger hseen => ⟨[], hledger, by simpa [Ledger.terminalSeen] using hseen,
      (List.append_nil _).symm⟩
  cases hstep with
  | deliver hchannel hallowed =>
    rw [RingSystem.deliver_eq]
    exact hnone _ rfl rfl
  | @account d batch nowNs hdrain hphase =>
    obtain ⟨hledger, hseen⟩ := accountBatch_ledger s.client d.reason batch nowNs
    exact ⟨batch, hledger, hseen, rfl⟩
  | push hdrain hphase hpush =>
    obtain ⟨queue, -, rfl⟩ := pushPending_frame hpush
    exact hnone _ rfl rfl
  | @finish d send t hdrain hphase hfinish =>
    obtain ⟨n, hcount⟩ := countNonempty_frame s.client d.total
    unfold RingSystem.finish at hfinish
    rw [hcount] at hfinish
    split at hfinish
    · obtain ⟨⟨client, message⟩, hsend, hfinish⟩ := Option.bind_eq_some_iff.1 hfinish
      obtain rfl := Option.some.inj hfinish
      rcases sendAckIfNeeded_cases hsend with ⟨-, rfl, -⟩ | ⟨-, m, rfl⟩ <;> exact hnone _ rfl rfl
    · obtain rfl := Option.some.inj hfinish
      exact hnone _ rfl rfl
  | @frameAck send t hfree hack =>
    obtain ⟨⟨client, message⟩, hsend, hack⟩ := Option.bind_eq_some_iff.1 hack
    obtain rfl := Option.some.inj hack
    rcases sendAckIfNeeded_cases hsend with ⟨-, rfl, -⟩ | ⟨-, m, rfl⟩ <;> exact hnone _ rfl rfl
  | _ => exact hnone _ rfl rfl

/-- `account_sequences` has made the ledger and the flag. -/
structure SequencesAccounted (s : RingSystem) : Prop where
  ledger : s.client.stats.ledger = Ledger.zero.account s.accounted
  terminalSeen : s.client.terminalSeen = Ledger.terminalSeen s.accounted

theorem RingStep.accounts {s t : RingSystem} {label : RingLabel} (hstep : RingStep s label t)
    (h : SequencesAccounted s) : SequencesAccounted t := by
  obtain ⟨batch, hledger, hseen, haccounted⟩ := hstep.account_cases
  constructor
  · rw [hledger, haccounted, h.ledger, Ledger.account_append]
  · rw [hseen, haccounted, h.terminalSeen, Ledger.terminalSeen_append]

theorem accounts_run (x : ClientStart) {labels : List RingLabel} {s : RingSystem}
    (hrun : ringMachine.run x.ringState labels = some s) : SequencesAccounted s := by
  have hstart : SequencesAccounted x.ringState := ⟨rfl, rfl⟩
  exact Machine.run_invariant SequencesAccounted
    (fun _ _ _ hu hstep => (ringStep_cases hstep).accounts hu) hstart hrun

/-! ## The records -/

namespace RingSystem

variable {s : RingSystem}

/-- The records drained so far are taken, or in the queue, or in the batch
that is not pushed, in this order; they are counted, less the batch that is
not counted; and they went through `account_sequences` in the same order. -/
structure HandedOver (s : RingSystem) : Prop where
  queued : s.taken.flatten ++ s.client.pending.records ++ s.phase.unpushed = s.drained
  counted : s.client.stats.ringRecords.toNat + s.phase.uncounted.length =
    s.drained.length
  accounted : s.accounted ++ s.phase.unaccounted = s.drained
  ledger : s.client.stats.ledger = Ledger.zero.account s.accounted
  /-- With the mutex free there is no batch on its way. -/
  unlocked : s.drain = none →
    s.taken.flatten ++ s.client.pending.records = s.drained ∧
    s.client.stats.ringRecords.toNat = s.drained.length ∧ s.accounted = s.drained ∧
    s.client.stats.ledger = Ledger.zero.account s.drained
  /-- A take empties the queue. -/
  takes : ∀ t, ringMachine.step s .takePending = some t →
    t.taken = s.taken ++ [s.client.pending.records] ∧ t.client.pending.records = []
  /-- A drain never finds an overrun ring. -/
  loads : ∀ d, s.drain = some d → d.phase = .load →
    ∃ t, ringMachine.step s .load = some t

end RingSystem

theorem RingInv.handedOver {s : RingSystem} (h : RingInv s) (haccounts : SequencesAccounted s) :
    s.HandedOver := by
  have hlength : s.drained.length = s.client.localTail.toNat - s.start :=
    slice_length h.client.local_le
  have hcounted := h.client.counted.trans hlength.symm
  refine ⟨h.client.pushed, hcounted, h.client.accounted, haccounts.ledger, ?_, ?_, ?_⟩
  · intro hfree
    have hphase := RingSystem.phase_of_free hfree
    have hpushed := h.client.pushed
    have haccounted := h.client.accounted
    rw [hphase] at hpushed hcounted haccounted
    have hpushed : s.taken.flatten ++ s.client.pending.records ++ [] = s.drained :=
      hpushed
    have haccounted : s.accounted ++ [] = s.drained := haccounted
    rw [List.append_nil] at hpushed haccounted
    refine ⟨hpushed, hcounted, haccounted, ?_⟩
    rw [haccounts.ledger, haccounted]
  · intro t hstep
    cases ringStep_cases hstep
    exact ⟨rfl, rfl⟩
  · intro d hdrain hphase
    obtain ⟨n, hn, -⟩ := h.available
    refine ⟨s.loadHead d n, ?_⟩
    simp only [ringMachine, ringStep, hdrain]
    unfold drainStep
    simp only [hphase, hn]

/-- Every record is handed to a frame exactly once and in order, in every
interleaving of the ingress thread, the frame thread and the bridge with
fewer than 2^64 - 1 publication attempts. -/
theorem handed_over_in_order (x : ClientStart) {labels : List RingLabel}
    {s : RingSystem} (hrun : ringMachine.run x.ringState labels = some s)
    (hlt : s.attempts.length + 1 < 2 ^ 64) : s.HandedOver :=
  (x.ringInv_run hrun hlt).handedOver (accounts_run x hrun)

/-- Two publications, one of them urgent, an urgent drain, and a frame that
takes the records between the push and the unlock. -/
def urgentHandoff : List RingLabel :=
  [.publish 0 0 (blankRecord 0 HFIOR_RECORD_MOTION), .announce .done .done .done,
    .publish 0 0 (blankRecord 0 HFIOR_RECORD_BUTTON), .announce .done .done .done,
    .readUrgent, .lockUrgent, .load, .copy, .account 0, .push, .takePending,
    .count, .finish .done]

theorem handed_over_urgent :
    ∃ s, ringMachine.run (ClientStart.fresh .hfiorLate 64 rfl).ringState urgentHandoff =
      some s ∧ s.HandedOver ∧ s.accepted.length = 2 ∧ s.taken.flatten = s.accepted := by
  have hrun : ringMachine.run (ClientStart.fresh .hfiorLate 64 rfl).ringState
      urgentHandoff = some _ := rfl
  exact ⟨_, hrun, handed_over_in_order _ hrun (by decide), by decide, by decide⟩

end Hfior
