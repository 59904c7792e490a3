import Hfior.RingClient.Invariant

/-!
# No urgent wake-up is lost

An urgent record that is accepted and not drained is watched: something that
has happened makes a drain load a head beyond it, or has done so.  The
cases of `Watched` follow the signal on its way from the bridge to the ring
check that answers it.

A step hands a record from one case to the next, in this order: announcing,
counter, signalled, loads again, seen.  A drain that has seen the record and
ends has passed it, since a batch that is not full ends at the loaded head.
-/

namespace Hfior

/-- The drain will load the head again: it is about to, or its batch is
full. -/
def DrainPhase.LoadsAgain : DrainPhase → Prop
  | .load => True
  | .copy available => available.toNat = drainBatchSize.toNat
  | .account batch | .push batch | .count batch =>
    batch.length = drainBatchSize.toNat
  | .finish => False

namespace RingSystem

variable {s t : RingSystem} {d : RingDrain} {p : Nat}

/-- An urgent record is accepted at the position, and the local tail is not
behind it. -/
def UrgentUnread (s : RingSystem) (p : Nat) : Prop :=
  s.client.localTail.toNat ≤ p ∧
    ∃ record, s.accepted[p]? = some record ∧ record.has urgentFlags = true

/-- What keeps an unread urgent record from being forgotten. -/
inductive Watched (s : RingSystem) (p : Nat) : Prop where
  /-- The counter of the eventfd is not zero. -/
  | counter (h : s.bridge.urgentFd ≠ 0)
  /-- The bridge has stored the head of this record, and has not written the
  eventfd. -/
  | announcing (a : Attempt) (h : s.announcing = some a)
      (hpublished : a.published = true) (hlast : p + 1 = s.accepted.length)
  /-- The ingress thread has read the counter, and its drain has not
  begun. -/
  | signalled (h : s.signalled = true)
  /-- The drain of the ingress thread has not done its last head load. -/
  | loadsAgain (d : RingDrain) (hdrain : s.drain = some d)
      (hthread : d.thread = .ingress) (h : d.phase.LoadsAgain)
  /-- A drain in progress has loaded a head beyond the record. -/
  | seen (d : RingDrain) (hdrain : s.drain = some d) (h : p < d.loaded.toNat)

/-- Every unread urgent record is watched. -/
def NoLostWakeup (s : RingSystem) : Prop :=
  ∀ p, s.UrgentUnread p → s.Watched p

/-! ## Steps of the bridge -/

/-- What a step leaves alone of a watched record: the counter stays above
zero, and no announcement ends. -/
private theorem watched_bridge_aux (h : s.Watched p)
    (hidle : s.announcing = none)
    (hcounter : s.bridge.urgentFd ≠ 0 → t.bridge.urgentFd ≠ 0)
    (hsignalled : t.signalled = s.signalled) (hdrain : t.drain = s.drain) :
    t.Watched p := by
  cases h with
  | counter h => exact .counter (hcounter h)
  | announcing a h hpublished hlast =>
    rw [hidle] at h
    cases h
  | signalled h => exact .signalled (hsignalled ▸ h)
  | loadsAgain d hd hthread h => exact .loadsAgain d (hdrain ▸ hd) hthread h
  | seen d hd h => exact .seen d (hdrain ▸ hd) h

/-- A record was unread before, unless it is the one that was just
published. -/
theorem urgentUnread_publish {beginNs endNs : UInt64} {record : Record}
    (h : (s.publish beginNs endNs record).UrgentUnread p) :
    s.UrgentUnread p ∨
      (publishAttempt s.bridge beginNs endNs record).1.published = true ∧
        p + 1 = (s.publish beginNs endNs record).accepted.length := by
  obtain ⟨hlocal, r, hget, hflags⟩ := h
  generalize ha : (publishAttempt s.bridge beginNs endNs record).1 = a
  have haccepted : (s.publish beginNs endNs record).accepted =
      acceptedRecords (s.attempts ++ [a]) := by
    rw [← ha]
    rfl
  rw [haccepted] at hget ⊢
  cases hpublished : a.published with
  | false =>
    rw [acceptedRecords_append_of_dropped hpublished] at hget
    exact .inl ⟨hlocal, r, hget, hflags⟩
  | true =>
    rw [acceptedRecords_append_of_published hpublished] at hget ⊢
    have hp := (List.getElem?_eq_some_iff.1 hget).1
    rw [List.length_append, List.length_singleton] at hp ⊢
    rcases Nat.lt_succ_iff_lt_or_eq.1 hp with hlt | heq
    · rw [List.getElem?_append_left hlt] at hget
      exact .inl ⟨hlocal, r, hget, hflags⟩
    · exact .inr ⟨rfl, by omega⟩

theorem watched_publish (h : s.NoLostWakeup) (hidle : s.announcing = none)
    (beginNs endNs : UInt64) (record : Record) :
    (s.publish beginNs endNs record).NoLostWakeup := by
  intro p hp
  rcases urgentUnread_publish hp with hold | ⟨hpublished, hlast⟩
  · refine watched_bridge_aux (h p hold) hidle ?_ rfl rfl
    show s.bridge.urgentFd ≠ 0 →
      (publishAttempt s.bridge beginNs endNs record).2.urgentFd ≠ 0
    rw [publishAttempt_urgentFd]
    exact id
  · exact .announcing _ rfl hpublished hlast

theorem watched_announce (hinv : RingInv s) (h : s.NoLostWakeup) {a : Attempt}
    (ha : s.announcing = some a) {send dropUrgent urgent : IoResult}
    (hallowed : announceAllowed s.bridge a send dropUrgent urgent = true) :
    (s.announceAttempt a send dropUrgent urgent).NoLostWakeup := by
  intro p hp
  have hold : s.UrgentUnread p := hp
  cases h p hold with
  | counter h => exact .counter (announce_urgentFd hallowed (.inl h))
  | announcing a' ha' hpublished hlast =>
    -- The record is the one being announced, so it is urgent.
    obtain rfl : a = a' := Option.some.inj (ha.symm.trans ha')
    obtain ⟨-, r, hget, hflags⟩ := hold
    obtain ⟨init, hinit⟩ := List.getLast?_eq_some_iff.1 (hinv.announcing a ha)
    have haccepted : s.accepted = acceptedRecords init ++ [a.record] := by
      rw [RingSystem.accepted, hinit, acceptedRecords_append_of_published hpublished]
    rw [haccepted, List.length_append, List.length_singleton] at hlast
    obtain rfl : p = (acceptedRecords init).length := by omega
    rw [haccepted, List.getElem?_concat_length] at hget
    obtain rfl := Option.some.inj hget
    exact .counter (announce_urgentFd hallowed (.inr hflags))
  | signalled h => exact .signalled h
  | loadsAgain d hd hthread h => exact .loadsAgain d hd hthread h
  | seen d hd h => exact .seen d hd h

/-- What `callAllowed` gives for a call of the bridge. -/
theorem callAllowed_iff {urgent : IoResult} :
    s.callAllowed urgent = true ↔ s.announcing = none ∧
      eventfdAllows s.bridge.urgentFd urgent = true := by
  rw [callAllowed, Bool.and_eq_true, Option.isNone_iff_eq_none]

theorem watched_deliver (h : s.NoLostWakeup) {ack : AckMessage}
    {rest : List AckMessage} {nowNs : UInt64} {urgent : IoResult}
    (hallowed : s.callAllowed urgent = true) :
    (s.deliver ack rest nowNs urgent).NoLostWakeup := by
  obtain ⟨hidle, hwrite⟩ := callAllowed_iff.1 hallowed
  rw [deliver_eq]
  intro p hp
  have hcount : eventfdAllows (countControlMessage s.bridge).urgentFd urgent =
    true := hwrite
  exact watched_bridge_aux (h p hp) hidle (handleAck_urgentFd ack nowNs hcount)
    rfl rfl

theorem watched_loseDevice (h : s.NoLostWakeup) {send urgent : IoResult}
    (hallowed : s.callAllowed urgent = true) :
    (s.loseDevice send urgent).NoLostWakeup := by
  obtain ⟨hidle, hwrite⟩ := callAllowed_iff.1 hallowed
  intro p hp
  exact watched_bridge_aux (h p hp) hidle (markDeviceGone_urgentFd send hwrite)
    rfl rfl

theorem watched_reconnect (h : s.NoLostWakeup) {fd : Int32}
    {send urgent : IoResult} (hallowed : s.callAllowed urgent = true) :
    (s.reconnect fd send urgent).NoLostWakeup := by
  obtain ⟨hidle, hwrite⟩ := callAllowed_iff.1 hallowed
  intro p hp
  exact watched_bridge_aux (h p hp) hidle
    (tryReconnectDevice_urgentFd fd send hwrite) rfl rfl

/-! ## Steps of the client -/

/-- A step of a drain hands a watched record on, if the drain keeps its
thread, its loaded head, and its need to load again. -/
private theorem watched_drain_aux {d' : RingDrain} (h : s.NoLostWakeup)
    (hdrain : s.drain = some d) (hnext : t.drain = some d')
    (hbridge : t.bridge = s.bridge) (hannouncing : t.announcing = s.announcing)
    (hattempts : t.attempts = s.attempts) (hsignalled : t.signalled = s.signalled)
    (hlocal : s.client.localTail.toNat ≤ t.client.localTail.toNat)
    (hthread : d'.thread = d.thread) (hloaded : d'.loaded = d.loaded)
    (hagain : d.phase.LoadsAgain → d'.phase.LoadsAgain) : t.NoLostWakeup := by
  intro p hp
  have haccepted : t.accepted = s.accepted := by
    rw [accepted, accepted, hattempts]
  obtain ⟨hle, hrecord⟩ := hp
  rw [haccepted] at hrecord
  cases h p ⟨hlocal.trans hle, hrecord⟩ with
  | counter h => exact .counter (hbridge ▸ h)
  | announcing a ha hpublished hlast =>
    exact .announcing a (hannouncing ▸ ha) hpublished (haccepted ▸ hlast)
  | signalled h => exact .signalled (hsignalled ▸ h)
  | loadsAgain e he hingress h =>
    obtain rfl : d = e := Option.some.inj (hdrain.symm.trans he)
    exact .loadsAgain d' hnext (hthread.trans hingress) (hagain h)
  | seen e he h =>
    obtain rfl : d = e := Option.some.inj (hdrain.symm.trans he)
    exact .seen d' hnext (hloaded ▸ h)

/-- The locks take a free mutex, so nothing that watches a record is
lost. -/
theorem watched_lock (h : s.NoLostWakeup) (hfree : s.drain = none)
    (reason : ReceiptReason) (acknowledgeNow : Bool) :
    (s.lock .frame reason acknowledgeNow).NoLostWakeup := by
  intro p hp
  cases h p hp with
  | counter h => exact .counter h
  | announcing a ha hpublished hlast => exact .announcing a ha hpublished hlast
  | signalled h => exact .signalled h
  | loadsAgain d hd hthread h =>
    rw [hfree] at hd
    cases hd
  | seen d hd h =>
    rw [hfree] at hd
    cases hd

/-- A head load sees every accepted record. -/
theorem watched_loadHead (hinv : RingInv s) (d : RingDrain) (available : UInt64) :
    (s.loadHead d available).NoLostWakeup := by
  intro p hp
  obtain ⟨-, r, hget, -⟩ := hp
  refine .seen _ rfl ?_
  show p < s.bridge.ring.producer.head.toNat
  rw [hinv.ring.head]
  exact (List.getElem?_eq_some_iff.1 hget).1

/-- An unlock behind a drain that is done, or behind no drain. -/
theorem watched_withAck (h : s.NoLostWakeup)
    (hdone : ∀ d, s.drain = some d → d.phase = .finish ∧
      d.loaded.toNat ≤ s.client.localTail.toNat)
    {client : Client} {message : Option AckMessage}
    (hsent : AckSent s.client client message) :
    (s.withAck client message).NoLostWakeup := by
  intro p hp
  obtain ⟨hle, hrecord⟩ := hp
  have hlocal : (s.withAck client message).client.localTail = s.client.localTail :=
    hsent.frame.localTail
  rw [hlocal] at hle
  cases h p ⟨hle, hrecord⟩ with
  | counter h => exact .counter h
  | announcing a ha hpublished hlast => exact .announcing a ha hpublished hlast
  | signalled h => exact .signalled h
  | loadsAgain d hd hthread h =>
    rw [(hdone d hd).1] at h
    exact h.elim
  | seen d hd h =>
    have := (hdone d hd).2
    omega

/-- Every step keeps the unread urgent records watched. -/
theorem NoLostWakeup.step (h : s.NoLostWakeup) (hinv : RingInv s)
    {label : RingLabel} (hstep : RingStep s label t) : t.NoLostWakeup := by
  cases hstep with
  | publish hidle => exact watched_publish h hidle _ _ _
  | announce hattempt hallowed => exact watched_announce hinv h hattempt hallowed
  | deliver hchannel hallowed => exact watched_deliver h hallowed
  | gone hallowed => exact watched_loseDevice h hallowed
  | reconnect hallowed => exact watched_reconnect h hallowed
  | readUrgent hpolls => exact fun p _ => .signalled rfl
  | lockUrgent hsignalled hfree =>
    exact fun p _ => .loadsAgain _ rfl rfl trivial
  | lockFrame hfree => exact watched_lock h hfree _ _
  | load hdrain hphase havailable => exact watched_loadHead hinv _ _
  | copy hdrain hphase =>
    rename_i d n
    obtain ⟨hloaded, hbounds⟩ := hinv.client.drain d hdrain
    rw [hphase] at hbounds
    have hend := hbounds.1.trans hloaded
    have hsum : (s.client.localTail + n).toNat =
        s.client.localTail.toNat + n.toNat := by
      rw [UInt64.toNat_add, Nat.mod_eq_of_lt]
      exact Nat.lt_of_le_of_lt hend hinv.ring.head_lt
    refine watched_drain_aux h hdrain rfl rfl rfl rfl rfl ?_ rfl rfl ?_
    · show s.client.localTail.toNat ≤ (s.client.localTail + n).toNat
      omega
    · intro hagain
      rw [hphase] at hagain
      show (copySlots _ _ n).length = _
      rw [copySlots, List.length_map, List.length_range]
      exact hagain
  | account hdrain hphase =>
    rename_i d batch nowNs
    obtain ⟨seen, ages, receipts, hclient⟩ :=
      accountBatch_frame s.client d.reason batch nowNs
    refine watched_drain_aux h hdrain rfl rfl rfl rfl rfl ?_ rfl rfl ?_
    · show _ ≤ (accountBatch s.client d.reason batch nowNs).localTail.toNat
      rw [hclient]
    · intro hagain
      rw [hphase] at hagain
      exact hagain
  | push hdrain hphase hpush =>
    obtain ⟨queue, -, rfl⟩ := pushPending_frame hpush
    refine watched_drain_aux h hdrain rfl rfl rfl rfl rfl (Nat.le_refl _) rfl rfl ?_
    intro hagain
    rw [hphase] at hagain
    exact hagain
  | count hdrain hphase =>
    rename_i d batch
    refine watched_drain_aux h hdrain rfl rfl rfl rfl rfl (Nat.le_refl _) rfl rfl ?_
    intro hagain
    rw [hphase] at hagain
    have hfull : ¬ batch.length < drainBatchSize.toNat :=
      Nat.not_lt.2 (Nat.le_of_eq hagain.symm)
    show (if batch.length < drainBatchSize.toNat then DrainPhase.finish
      else .load).LoadsAgain
    rw [if_neg hfull]
    trivial
  | finish hdrain hphase hfinish =>
    rename_i d send
    obtain ⟨client, message, hsent, rfl⟩ := finish_withAck hfinish
    refine watched_withAck h ?_ hsent
    intro e he
    obtain rfl : d = e := Option.some.inj (hdrain.symm.trans he)
    have hbounds := (hinv.client.drain d hdrain).2
    rw [hphase] at hbounds
    exact ⟨hphase, hbounds⟩
  | takePending hruns =>
    intro p hp
    cases h p hp with
    | counter h => exact .counter h
    | announcing a ha hpublished hlast => exact .announcing a ha hpublished hlast
    | signalled h => exact .signalled h
    | loadsAgain d hd hthread h => exact .loadsAgain d hd hthread h
    | seen d hd h => exact .seen d hd h
  | frameAck hfree hack =>
    obtain ⟨client, message, hsent, rfl⟩ := frameAck_withAck hfree hack
    refine watched_withAck h ?_ hsent
    intro d hd
    rw [hfree] at hd
    cases hd

end RingSystem

/-- No urgent wake-up is lost, in any interleaving of a client that starts
at the head, as `synchronize_start` leaves it. -/
theorem no_urgent_wakeup_lost (x : ClientStart)
    (hhead : x.position = x.bridge.ring.producer.head) {labels : List RingLabel}
    {s : RingSystem} (hrun : ringMachine.run x.ringState labels = some s)
    (hlt : s.attempts.length + 1 < 2 ^ 64) : s.NoLostWakeup := by
  have hkeep : ∀ u label v, RingInv u ∧ u.NoLostWakeup →
      v.attempts.length + 1 < 2 ^ 64 → ringMachine.step u label = some v →
      RingInv v ∧ v.NoLostWakeup := by
    rintro u label v ⟨hu, hwatched⟩ hv hstep
    have hstep := ringStep_cases hstep
    exact ⟨hu.step hstep hv, hwatched.step hu hstep⟩
  have hmono : x.attempts.length + 1 ≤ s.attempts.length + 1 :=
    Machine.run_mono (μ := fun u : RingSystem => u.attempts.length + 1)
      (fun _ _ _ hstep => ringMachine_mono hstep) hrun
  have hinv := x.ringInv (Nat.lt_of_le_of_lt hmono hlt)
  -- At the head there is no unread record.
  have hstart : x.ringState.NoLostWakeup := by
    rintro p ⟨hle, r, hget, -⟩
    have hp : p < x.ringState.accepted.length := (List.getElem?_eq_some_iff.1 hget).1
    have hlocal : x.ringState.client.localTail.toNat = x.ringState.accepted.length := by
      show x.position.toNat = _
      rw [hhead]
      exact hinv.ring.head
    omega
  exact (Machine.run_invariant_below (fun u => RingInv u ∧ u.NoLostWakeup)
    (fun u => u.attempts.length + 1) (fun _ _ _ hstep => ringMachine_mono hstep)
    hkeep ⟨hinv, hstart⟩ hrun hlt).2

/-- A button record arrives while the ingress thread is in a drain that has
loaded the head before. -/
def lateButton : List RingLabel :=
  [.publish 0 0 (blankRecord 0 HFIOR_RECORD_BUTTON), .announce .done .done .done,
    .readUrgent, .lockUrgent, .load,
    .publish 0 0 (blankRecord 0 HFIOR_RECORD_BUTTON), .copy, .account 0, .push,
    .count, .finish .done]

theorem no_urgent_wakeup_lost_late_button :
    ∃ s, ringMachine.run (ClientStart.fresh .hfiorLate 64 rfl).ringState lateButton =
      some s ∧ s.NoLostWakeup := by
  have hrun : ringMachine.run (ClientStart.fresh .hfiorLate 64 rfl).ringState
      lateButton = some _ := rfl
  exact ⟨_, hrun, no_urgent_wakeup_lost _ rfl hrun (by decide)⟩

end Hfior
