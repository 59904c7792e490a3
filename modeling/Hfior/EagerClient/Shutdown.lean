import Hfior.EagerClient.System
import Hfior.Library.Slice

/-!
# What the two readers report

A message of the bridge is accounted for, and pushed to the pending queue,
some time after it was received, and at the shutdown two threads do so
without a lock.  In a run that is in turn every thread waits while the other
one has an earlier message in work.  Such a run accounts for the records in
the order in which they were sent, and reports no disorder.

The program does not wait, and `disorder_reported_at_shutdown` is what comes
of it: a loss-free run that counts a gap and a reordered record.  Drains that
do not overlap are in turn (`eager_in_order_of_drainsApart`).
-/

namespace Hfior

/-! ## Records without gaps -/

/-- The sequences are consecutive, and none of them is zero. -/
def InOrder (records : List Record) : Prop :=
  ∃ first, 0 < first ∧ ∀ p (h : p < records.length),
    records[p].sequence.toNat = first + p

section
variable {records received : List Record} {l : Ledger}

theorem InOrder.of_isPrefix (h : InOrder records) (hpre : received <+: records) :
    InOrder received := by
  obtain ⟨first, hfirst, hseq⟩ := h
  refine ⟨first, hfirst, fun p hp => ?_⟩
  rw [hpre.getElem hp]
  exact hseq p _

theorem InOrder.increasing (h : InOrder records) :
    records.Pairwise fun x y => x.sequence.toNat < y.sequence.toNat := by
  obtain ⟨first, -, hseq⟩ := h
  rw [List.pairwise_iff_getElem]
  intro i j hi hj hij
  rw [hseq i hi, hseq j hj]
  omega

theorem InOrder.sequence_ne (h : InOrder records) {record : Record}
    (hmem : record ∈ records) : record.sequence ≠ 0 := by
  obtain ⟨first, hfirst, hseq⟩ := h
  obtain ⟨p, hp, rfl⟩ := List.mem_iff_getElem.1 hmem
  intro h0
  have hp := hseq p hp
  rw [h0, UInt64.toNat_zero] at hp
  omega

/-- The ledger of records without gaps counts none, and no disorder. -/
theorem InOrder.ledger (h : InOrder records) :
    (Ledger.zero.account records).duplicateOrReordered = 0 ∧
      (Ledger.zero.account records).sequenceGaps = 0 := by
  have hof : (Ledger.zero.account records).Of records :=
    Ledger.of_zero.account h.increasing fun _ hmem => h.sequence_ne hmem
  refine ⟨hof.duplicates, ?_⟩
  have hgaps := hof.gaps
  split at hgaps
  · exact hgaps
  · rename_i hne
    have hlength : 0 < records.length := List.length_pos_iff.2 hne
    have hsum := hgaps.2
    obtain ⟨first, -, hseq⟩ := h
    have hfirst := hseq 0 hlength
    have hlast := hseq (records.length - 1) (by omega)
    rw [hof.first, hof.last, List.head?_eq_getElem?, List.getLast?_eq_getElem?,
      List.getElem?_eq_getElem hlength, List.getElem?_eq_getElem (by omega)] at hsum
    simp only [Option.map_some, Option.getD_some] at hsum
    exact UInt64.toNat_inj.1 (by rw [UInt64.toNat_zero]; omega)

end

/-! ## Runs in turn -/

/-- The other thread has no message before this one in work. -/
def comesFirst (own other : Option Nat) : Prop :=
  ∀ p ∈ own, ∀ q ∈ other, p ≤ q

instance (own other : Option Nat) : Decidable (comesFirst own other) := by
  unfold comesFirst
  infer_instance

/-- A thread accounts for a message, and pushes it, while the other thread
has no earlier message that waits for the same. -/
def inTurn (s : EagerSystem) : EagerLabel → Prop
  | .account thread _ =>
    comesFirst (s.unaccounted thread) (s.unaccounted thread.other)
  | .push thread => comesFirst (s.unpushed thread) (s.unpushed thread.other)
  | _ => True

instance (s : EagerSystem) (label : EagerLabel) : Decidable (inTurn s label) := by
  cases label <;> unfold inTurn <;> infer_instance

def inTurnMachine : Machine EagerSystem EagerLabel :=
  eagerMachine.guard inTurn

/-- The messages in work are the ones that are received and not accounted
for, and the ones that are received and not pushed. -/
structure EagerInv (s : EagerSystem) : Prop where
  socket : eagerRecords s.socket = s.sent.drop s.received
  received_le : s.received ≤ s.sent.length
  message : ∀ thread m p, (s.phase thread).message = some (m, p) →
    s.sent[p]? = some m
  accounts : Holds s.unaccounted s.accounted.length s.received
  pushes : Holds s.unpushed s.pushed.length s.received
  accounted : s.accounted <+: s.sentRecords
  pushed : s.pushed <+: s.sentRecords
  ledger : s.client.stats.ledger = Ledger.zero.account s.accounted
  parked : ∀ thread, s.stage.parked = some thread → s.phase thread = .outside

variable {s t : EagerSystem} {thread : EagerThread}

/-- A position that comes before the one of the other thread is the least. -/
theorem comesFirst_all {held : EagerThread → Option Nat} {p : Nat}
    (hp : held thread = some p)
    (hturn : comesFirst (held thread) (held thread.other)) :
    ∀ j q, held j = some q → p ≤ q := by
  intro j q hq
  by_cases hj : j = thread
  · rw [hj, hp] at hq
    cases hq
    exact Nat.le_refl _
  · have hother : j = thread.other := by
      cases j <;> cases thread <;> first | rfl | exact absurd rfl hj
    rw [hother] at hq
    exact hturn p hp q hq

namespace EagerInv

theorem initial (generation position : UInt64) :
    EagerInv (.initial generation position) where
  socket := rfl
  received_le := Nat.le_refl _
  message _ _ _ h := by cases h
  accounts := .idle fun _ => rfl
  pushes := .idle fun _ => rfl
  accounted := List.nil_prefix
  pushed := List.nil_prefix
  ledger := rfl
  parked _ h := by cases h

/-- The ledger and the queue are all that matters of the client. -/
theorem withClient (h : EagerInv s) {client : Client}
    (hledger : client.stats.ledger = s.client.stats.ledger)
    (hpending : client.pending = s.client.pending) :
    EagerInv { s with client := client } := by
  have hpushed : EagerSystem.pushed { s with client := client } = s.pushed := by
    rw [EagerSystem.pushed, EagerSystem.pushed, hpending]
  exact ⟨h.socket, h.received_le, h.message, h.accounts, hpushed ▸ h.pushes,
    h.accounted, hpushed ▸ h.pushed, hledger.trans h.ledger, h.parked⟩

/-- A thread that goes to a phase brings its message there. -/
theorem message_goTo (h : EagerInv s) {phase : EagerPhase}
    (hphase : ∀ m p, phase.message = some (m, p) → s.sent[p]? = some m) :
    ∀ other m p, ((s.goTo thread phase).phase other).message = some (m, p) →
      s.sent[p]? = some m := by
  intro other m p hm
  by_cases hother : other = thread
  · rw [hother, EagerSystem.goTo_phase, Function.update_self] at hm
    exact hphase m p hm
  · rw [EagerSystem.goTo_phase, Function.update_of_ne hother] at hm
    exact h.message other m p hm

/-- A thread that is parked stays outside. -/
theorem parked_goTo (h : EagerInv s) {phase : EagerPhase}
    (hphase : s.stage.parked = some thread → phase = .outside) :
    ∀ other, s.stage.parked = some other →
      (s.goTo thread phase).phase other = .outside := by
  intro other hother
  rw [EagerSystem.goTo_phase]
  by_cases hsame : other = thread
  · rw [hsame, Function.update_self]
    exact hphase (hsame ▸ hother)
  · rw [Function.update_of_ne hsame]
    exact h.parked other hother

/-- A thread in the loop is not parked. -/
theorem not_parked (h : EagerInv s) (hinside : s.phase thread ≠ .outside)
    {phase : EagerPhase} : s.stage.parked = some thread → phase = .outside :=
  fun hparked => absurd (h.parked thread hparked) hinside

/-- A thread enters the loop or leaves it. -/
theorem goTo_idle (h : EagerInv s) {phase : EagerPhase}
    (hnow : (s.phase thread).message = none) (hnext : phase.message = none)
    (hparked : s.stage.parked = some thread → phase = .outside) :
    EagerInv (s.goTo thread phase) := by
  have haccounts : (s.goTo thread phase).unaccounted = s.unaccounted := by
    have hsame : phase.unaccounted = s.unaccounted thread := by
      rw [EagerSystem.unaccounted, EagerPhase.unaccounted_of_message hnow,
        EagerPhase.unaccounted_of_message hnext]
    rw [EagerSystem.goTo_unaccounted, hsame, Function.update_eq_self]
  have hpushes : (s.goTo thread phase).unpushed = s.unpushed := by
    have hsame : phase.unpushed = s.unpushed thread := by
      rw [EagerSystem.unpushed, EagerPhase.unpushed_eq, EagerPhase.unpushed_eq,
        hnow, hnext]
    rw [EagerSystem.goTo_unpushed, hsame, Function.update_eq_self]
  refine ⟨h.socket, h.received_le, h.message_goTo ?_, ?_, ?_, h.accounted,
    h.pushed, h.ledger, h.parked_goTo hparked⟩
  · intro m p hm
    rw [hnext] at hm
    cases hm
  · rw [haccounts]
    exact h.accounts
  · rw [hpushes]
    exact h.pushes

theorem send (h : EagerInv s) (m : BridgeMessage) : EagerInv (s.send m) where
  socket := by
    show eagerRecords (s.socket ++ [m]) = (s.sent ++ eagerRecords [m]).drop s.received
    rw [List.drop_append_of_le_length h.received_le, ← h.socket]
    exact List.filterMap_append
  received_le := by
    show s.received ≤ (s.sent ++ eagerRecords [m]).length
    have := h.received_le
    rw [List.length_append]
    omega
  message other e p hm := by
    have hp := h.message other e p hm
    show (s.sent ++ eagerRecords [m])[p]? = some e
    have hlt : p < s.sent.length := (List.getElem?_eq_some_iff.1 hp).1
    rw [List.getElem?_append_left hlt, hp]
  accounts := h.accounts
  pushes := h.pushes
  accounted := h.accounted.trans (s.sentRecords_send m)
  pushed := h.pushed.trans (s.sentRecords_send m)
  ledger := h.ledger
  parked := h.parked

/-- An EAGER_RECORD datagram goes to a thread, with the next position. -/
theorem takeEager (h : EagerInv s) {m : EagerRecordMessage}
    {rest : List BridgeMessage} (hphase : s.phase thread = .receives)
    (hsocket : s.socket = .eagerRecord m :: rest) :
    EagerInv (s.takeEager thread m rest) := by
  have hdrop : s.sent.drop s.received = m :: eagerRecords rest := by
    rw [← h.socket, hsocket]
    rfl
  have hm : s.sent[s.received]? = some m := by
    rw [← List.head?_drop, hdrop]
    rfl
  have hlt : s.received < s.sent.length := (List.getElem?_eq_some_iff.1 hm).1
  refine ⟨?_, hlt, h.message_goTo ?_, ?_, ?_, h.accounted, h.pushed, h.ledger,
    h.parked_goTo (h.not_parked (by rw [hphase]; simp))⟩
  · show eagerRecords rest = s.sent.drop (s.received + 1)
    rw [← List.tail_drop, hdrop]
    rfl
  · intro e p he
    cases he
    exact hm
  · show Holds (s.goTo thread _).unaccounted s.accounted.length (s.received + 1)
    rw [EagerSystem.goTo_unaccounted]
    exact h.accounts.take (by rw [EagerSystem.unaccounted, hphase]; rfl)
  · show Holds (s.goTo thread _).unpushed s.pushed.length (s.received + 1)
    rw [EagerSystem.goTo_unpushed]
    exact h.pushes.take (by rw [EagerSystem.unpushed, hphase]; rfl)

/-- Another datagram leaves the socket. -/
theorem takeOther (h : EagerInv s) {m : BridgeMessage} {rest : List BridgeMessage}
    {client : Client} (hsocket : s.socket = m :: rest)
    (hother : eagerRecords [m] = [])
    (hclient : receiveMessage s.client true 0 m = some client) :
    EagerInv (s.takeOther client rest) := by
  have hrest : eagerRecords s.socket = eagerRecords rest := by
    rw [hsocket]
    show eagerRecords ([m] ++ rest) = eagerRecords rest
    rw [eagerRecords, List.filterMap_append]
    show eagerRecords [m] ++ eagerRecords rest = eagerRecords rest
    rw [hother, List.nil_append]
  have hkept : EagerInv { s with socket := rest } :=
    ⟨hrest ▸ h.socket, h.received_le, h.message, h.accounts, h.pushes,
      h.accounted, h.pushed, h.ledger, h.parked⟩
  cases m with
  | eagerRecord m => cases hother
  | deviceState m =>
    cases hclient
    refine hkept.withClient ?_ ?_
    all_goals
      simp only [countControl, adoptGeneration]
      split <;> rfl
  | other header =>
    cases hclient
    exact hkept.withClient rfl rfl

/-- The next record is accounted for. -/
theorem account (h : EagerInv s) {m : EagerRecordMessage} {p : Nat}
    (hphase : s.phase thread = .accounts m p)
    (hturn : comesFirst (s.unaccounted thread) (s.unaccounted thread.other))
    (nowNs : UInt64) : EagerInv (s.account thread m p nowNs) := by
  have hown : s.unaccounted thread = some p := by
    rw [EagerSystem.unaccounted, hphase]
    rfl
  have hp : p = s.accounted.length :=
    h.accounts.eq_low hown (comesFirst_all hown hturn)
  have hm : s.sent[p]? = some m := h.message thread m p (by rw [hphase]; rfl)
  refine ⟨h.socket, h.received_le, h.message_goTo ?_, ?_, ?_, ?_, ?_, ?_,
    h.parked_goTo (h.not_parked (by rw [hphase]; simp))⟩
  · intro e q he
    cases he
    exact hm
  · show Holds (s.goTo thread _).unaccounted (s.accounted ++ [m.record]).length _
    rw [EagerSystem.goTo_unaccounted, List.length_append]
    exact h.accounts.release (hp ▸ hown)
  · have hsame : (EagerPhase.pushes m p).unpushed = s.unpushed thread := by
      rw [EagerSystem.unpushed, hphase]
      rfl
    have hpushed : (s.account thread m p nowNs).pushed = s.pushed := by
      rw [EagerSystem.pushed, EagerSystem.account, accountEager_pending]
      rfl
    show Holds (s.goTo thread _).unpushed (s.account thread m p nowNs).pushed.length _
    rw [EagerSystem.goTo_unpushed, hsame, Function.update_eq_self, hpushed]
    exact h.pushes
  · exact prefix_snoc h.accounted (s.sentRecords_get (hp ▸ hm))
  · show (s.account thread m p nowNs).pushed <+: s.sentRecords
    rw [EagerSystem.pushed, EagerSystem.account, accountEager_pending]
    exact h.pushed
  · show (accountEager s.client m nowNs).stats.ledger = _
    rw [accountEager_ledger, h.ledger]
    exact (Ledger.account_append ..).symm

/-- The next record is pushed. -/
theorem push (h : EagerInv s) {m : EagerRecordMessage} {p : Nat} {client : Client}
    (hphase : s.phase thread = .pushes m p)
    (hturn : comesFirst (s.unpushed thread) (s.unpushed thread.other))
    (hpush : pushPending s.client [m.record] = some client) :
    EagerInv (s.push thread client) := by
  have hown : s.unpushed thread = some p := by
    rw [EagerSystem.unpushed, hphase]
    rfl
  have hp : p = s.pushed.length :=
    h.pushes.eq_low hown (comesFirst_all hown hturn)
  have hm : s.sent[p]? = some m := h.message thread m p (by rw [hphase]; rfl)
  obtain ⟨queue, hqueue, rfl⟩ := pushPending_frame hpush
  have hpushed : (s.push thread { s.client with pending := queue }).pushed =
      s.pushed ++ [m.record] := by
    show s.taken.flatten ++ queue.records = _
    rw [hqueue, ← List.append_assoc]
    rfl
  refine ⟨h.socket, h.received_le, h.message_goTo ?_, ?_, ?_, h.accounted, ?_,
    h.ledger, h.parked_goTo (h.not_parked (by rw [hphase]; simp))⟩
  · intro e q he
    cases he
  · have hsame : EagerPhase.receives.unaccounted = s.unaccounted thread := by
      rw [EagerSystem.unaccounted, hphase]
      rfl
    show Holds (s.goTo thread _).unaccounted _ _
    rw [EagerSystem.goTo_unaccounted, hsame, Function.update_eq_self]
    exact h.accounts
  · rw [hpushed, List.length_append]
    show Holds (s.goTo thread _).unpushed _ _
    rw [EagerSystem.goTo_unpushed]
    exact h.pushes.release (hp ▸ hown)
  · rw [hpushed]
    exact prefix_snoc h.pushed (s.sentRecords_get (hp ▸ hm))

theorem takePending (h : EagerInv s) : EagerInv s.takePending := by
  have hpushed : s.takePending.pushed = s.pushed := by
    rw [EagerSystem.pushed, EagerSystem.takePending, List.flatten_append]
    simp [queueTakeAll, EagerSystem.pushed]
  exact ⟨h.socket, h.received_le, h.message, h.accounts, hpushed ▸ h.pushes,
    h.accounted, hpushed ▸ h.pushed, h.ledger, h.parked⟩

/-- The main thread goes on to a stage, and the thread parked there is
outside. -/
theorem withStage (h : EagerInv s) {stage : EagerStage}
    (hparked : ∀ thread, stage.parked = some thread →
      s.phase thread = .outside) : EagerInv { s with stage := stage } :=
  ⟨h.socket, h.received_le, h.message, h.accounts, h.pushes, h.accounted,
    h.pushed, h.ledger, hparked⟩

theorem join (h : EagerInv s) (hstage : s.stage = .stopping)
    (hingress : s.phase .ingress = .outside) : EagerInv s.join := by
  have hmain : s.phase .main = .outside := h.parked .main (by rw [hstage]; rfl)
  have hjoined : EagerInv { s with stage := .joined } := by
    refine h.withStage fun thread hthread => ?_
    cases hthread
    exact hingress
  exact hjoined.goTo_idle (by rw [hmain]; rfl) rfl (by intro hnot; cases hnot)

/-- Every step in turn keeps the invariant. -/
theorem step (h : EagerInv s) {label : EagerLabel} (hturn : inTurn s label)
    (hstep : EagerStep s label t) : EagerInv t := by
  cases hstep with
  | send hstage => exact h.send _
  | enter hphase henter =>
    refine h.goTo_idle (by rw [hphase]; rfl) rfl fun hparked => ?_
    exact absurd hparked (s.not_parked_of_mayEnter henter)
  | recvEager hphase hsocket => exact h.takeEager hphase hsocket
  | recvOther hphase hsocket hother hclient => exact h.takeOther hsocket hother hclient
  | leave hphase hending =>
    exact (h.goTo_idle (by rw [hphase]; rfl) rfl fun _ => rfl).withClient rfl rfl
  | account hphase => exact h.account hphase hturn _
  | push hphase hpush => exact h.push hphase hturn hpush
  | takePending hstage => exact h.takePending
  | beginShutdown hstage => exact h.withStage fun _ hnot => by cases hnot
  | stop hstage hmain =>
    refine h.withStage fun thread hthread => ?_
    cases hthread
    exact hmain
  | join hstage hingress => exact h.join hstage hingress

/-- At the end every record that was sent is in the queue. -/
theorem pushed_of_finished (h : EagerInv s) (hfinished : s.Finished) :
    s.pushed = s.sentRecords := by
  obtain ⟨hstage, hmain, hsocket⟩ := hfinished
  have hingress : s.phase .ingress = .outside :=
    h.parked .ingress (by rw [hstage]; rfl)
  have hidle : ∀ thread, s.unpushed thread = none := by
    intro thread
    cases thread with
    | ingress =>
      rw [EagerSystem.unpushed, hingress]
      rfl
    | main =>
      rw [EagerSystem.unpushed, hmain]
      rfl
  have hlength : s.pushed.length = s.received := h.pushes.eq_of_idle hidle
  have hall : s.sent.length ≤ s.received := by
    have hnone := h.socket
    rw [hsocket] at hnone
    exact List.drop_eq_nil_iff.1 hnone.symm
  refine h.pushed.eq_of_length_le ?_
  rw [EagerSystem.sentRecords, List.length_map, hlength]
  exact hall

end EagerInv

/-! ## The reports -/

/-- Nothing is reported that did not happen. -/
def ReportsInOrder (s : EagerSystem) : Prop :=
  s.client.stats.ledger.duplicateOrReordered = 0 ∧
    s.client.stats.ledger.sequenceGaps = 0 ∧
    s.pushed <+: s.sentRecords ∧ (s.Finished → s.pushed = s.sentRecords)

theorem EagerInv.reportsInOrder (h : EagerInv s) (hsent : InOrder s.sentRecords) :
    ReportsInOrder s := by
  have hledger := (hsent.of_isPrefix h.accounted).ledger
  rw [ReportsInOrder, h.ledger]
  exact ⟨hledger.1, hledger.2, h.pushed, h.pushed_of_finished⟩

/-- In every run in turn, a gap-free sequence of datagrams is reported
without a gap and without disorder, and its records are pushed in its order,
all of them by the end. -/
theorem eager_in_order_of_inTurn {generation position : UInt64}
    {labels : List EagerLabel}
    (hrun : inTurnMachine.run (.initial generation position) labels = some s)
    (hsent : InOrder s.sentRecords) :
    s.client.stats.ledger.duplicateOrReordered = 0 ∧
      s.client.stats.ledger.sequenceGaps = 0 ∧
      s.pushed <+: s.sentRecords ∧ (s.Finished → s.pushed = s.sentRecords) := by
  have hinv : EagerInv s := by
    refine Machine.run_invariant EagerInv ?_ (.initial generation position) hrun
    intro u label v hu hstep
    obtain ⟨hturn, hstep⟩ := Machine.guard_step.1 hstep
    exact hu.step hturn (eagerStep_cases hstep)
  exact hinv.reportsInOrder hsent

/-- Three datagrams, of which the ingress thread finishes the first. -/
def sendThree : List EagerLabel :=
  [.send (.eagerRecord ⟨1, blankRecord 1 HFIOR_RECORD_MOTION⟩),
    .send (.eagerRecord ⟨1, blankRecord 2 HFIOR_RECORD_MOTION⟩),
    .send (.eagerRecord ⟨1, blankRecord 3 HFIOR_RECORD_MOTION⟩),
    .enter .ingress, .recv .ingress, .account .ingress 0, .push .ingress]

/-- The main thread goes through its shutdown with both threads outside. -/
def stopAndJoin : List EagerLabel :=
  [.leave .main .empty, .stop, .leave .ingress .closed, .join, .leave .main .closed]

/-- The shutdown loop takes a datagram while the ingress thread has an earlier
one in work, and both keep their turns. -/
theorem eager_in_order_in_turn :
    ∃ s, inTurnMachine.run (.initial 1 0) (sendThree ++ [.beginShutdown,
        .recv .ingress, .enter .main, .recv .main, .account .ingress 0,
        .account .main 0, .push .ingress, .push .main] ++ stopAndJoin) = some s ∧
      (s.client.stats.ledger.duplicateOrReordered = 0 ∧
        s.client.stats.ledger.sequenceGaps = 0 ∧
        s.pushed <+: s.sentRecords ∧ (s.Finished → s.pushed = s.sentRecords)) := by
  have hrun : inTurnMachine.run (.initial 1 0) (sendThree ++ [.beginShutdown,
      .recv .ingress, .enter .main, .recv .main, .account .ingress 0,
      .account .main 0, .push .ingress, .push .main] ++ stopAndJoin) = some _ := rfl
  refine ⟨_, hrun, eager_in_order_of_inTurn hrun ⟨1, by decide, ?_⟩⟩
  decide

/-- The callback work of the ingress thread on the second datagram lasts
until the shutdown loop is done with the third: the loss-free run ends with
a gap and a reordered record, and a queue out of order. -/
theorem disorder_reported_at_shutdown :
    ∃ s, eagerMachine.run (.initial 1 0) (sendThree ++ [.beginShutdown,
        .recv .ingress, .enter .main, .recv .main, .account .main 0,
        .push .main, .account .ingress 0, .push .ingress] ++ stopAndJoin) = some s ∧
      InOrder s.sentRecords ∧ s.Finished ∧
      s.client.stats.ledger.duplicateOrReordered = 1 ∧
      s.client.stats.ledger.sequenceGaps = 1 ∧
      s.pushed.map Record.sequence = [1, 3, 2] := by
  refine ⟨_, rfl, ⟨1, by decide, ?_⟩, ⟨rfl, rfl, rfl⟩, rfl, rfl, rfl⟩
  decide

/-! ## Drains that do not overlap -/

/-- A thread calls `drain_control_socket_nonblocking` while the other one is
not in it. -/
def drainsApart (s : EagerSystem) : EagerLabel → Prop
  | .enter thread => s.phase thread.other = .outside
  | _ => True

instance (s : EagerSystem) (label : EagerLabel) : Decidable (drainsApart s label) := by
  cases label <;> unfold drainsApart <;> infer_instance

/-- At most one thread is in a drain. -/
def OneDrain (s : EagerSystem) : Prop :=
  ∀ thread, s.phase thread ≠ .outside → s.phase thread.other = .outside

namespace OneDrain

/-- A thread that has no message never comes out of turn, and neither does
one that is alone. -/
theorem inTurn (h : OneDrain s) (label : EagerLabel) : Hfior.inTurn s label := by
  have halone : ∀ thread, s.phase thread = .outside ∨ s.phase thread.other = .outside := by
    intro thread
    by_cases houtside : s.phase thread = .outside
    · exact .inl houtside
    · exact .inr (h thread houtside)
  cases label with
  | account thread nowNs =>
    rintro p hp q hq
    rcases halone thread with houtside | houtside
    · simp [EagerSystem.unaccounted, houtside, EagerPhase.unaccounted] at hp
    · simp [EagerSystem.unaccounted, houtside, EagerPhase.unaccounted] at hq
  | push thread =>
    rintro p hp q hq
    rcases halone thread with houtside | houtside
    · simp [EagerSystem.unpushed, houtside, EagerPhase.unpushed] at hp
    · simp [EagerSystem.unpushed, houtside, EagerPhase.unpushed] at hq
  | _ => trivial

/-- A thread goes on while the other one is outside. -/
theorem goTo {phase : EagerPhase} (hother : s.phase thread.other = .outside) :
    OneDrain (s.goTo thread phase) := by
  intro worker hinside
  rw [EagerSystem.goTo_phase] at hinside ⊢
  cases worker <;> cases thread <;> simp_all [EagerThread.other, Function.update]

/-- A thread in a drain goes on alone. -/
theorem goOn {phase : EagerPhase} (h : OneDrain s) (hinside : s.phase thread ≠ .outside) :
    OneDrain (s.goTo thread phase) :=
  .goTo (h thread hinside)

theorem step (h : OneDrain s) {label : EagerLabel} (hapart : drainsApart s label)
    (hstep : EagerStep s label t) : OneDrain t := by
  cases hstep with
  | enter hphase henter => exact .goTo hapart
  | recvEager hphase hsocket => exact h.goOn (by rw [hphase]; nofun)
  | leave hphase hending => exact h.goOn (by rw [hphase]; nofun)
  | account hphase => exact h.goOn (by rw [hphase]; nofun)
  | push hphase hpush => exact h.goOn (by rw [hphase]; nofun)
  | join hstage hingress => exact .goTo hingress
  | _ => exact h

end OneDrain

/-- If no drain of the shutdown loop overlaps one of the ingress thread, every
step is in turn, so the reports are in order. -/
theorem eager_in_order_of_drainsApart {generation position : UInt64} {labels : List EagerLabel}
    (hrun : (eagerMachine.guard drainsApart).run (.initial generation position) labels = some s)
    (hsent : InOrder s.sentRecords) : ReportsInOrder s := by
  have hinv : OneDrain s ∧ EagerInv s := by
    refine Machine.run_invariant (fun u => OneDrain u ∧ EagerInv u) ?_
      ⟨fun _ _ => rfl, .initial generation position⟩ hrun
    rintro u label v ⟨hone, hu⟩ hstep
    obtain ⟨hapart, hstep⟩ := Machine.guard_step.1 hstep
    have hcases := eagerStep_cases hstep
    exact ⟨hone.step hapart hcases, hu.step (hone.inTurn label) hcases⟩
  exact hinv.2.reportsInOrder hsent

end Hfior
