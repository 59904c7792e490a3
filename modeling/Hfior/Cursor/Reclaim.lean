import Hfior.Cursor.Invariant

/-!
# Reclaiming a fully read ring

A cursor sends no ACK while its local tail equals its acknowledged tail.
So the ring is reclaimed if the acknowledged tail mirrors the tail of the
ring: the two are equal once every ACK is delivered.

A cursor that begins at the current head of a ring with unread records
takes that head as its acknowledged tail, although no ACK was sent for it.
Unless the head moves on, nothing is ever acknowledged, and the tail of the
ring stays where it was.

`reclaimable_iff` says that this is the only way to go wrong.
-/

namespace Hfior

/-- A step that reconnects. -/
def CursorLabel.isReconnect : CursorLabel → Bool
  | .reconnect _ _ _ => true
  | _ => false

/-- The machine without reconnects. -/
def fixedGeneration : Machine CursorSystem CursorLabel :=
  cursorMachine.guard fun _ label => label.isReconnect = false

namespace CursorSystem

variable {s t : CursorSystem} {c : Cursor} {head : UInt64}

/-- The reader has nothing left to read and nothing left to acknowledge:
another ACK call returns 0 and sends nothing, and every ACK is
delivered. -/
def FullyRead (s : CursorSystem) : Prop :=
  ∃ c, s.reader = .ready c .idle ∧ c.localTail = s.head ∧
    cursorAck (some c) .done = .ok (c, none) ∧ s.channel = []

/-- The ring is empty, and the next publish is accepted. -/
def Reclaimed (s : CursorSystem) : Prop :=
  s.tail = s.head ∧ ∀ record, (ringPublish s.bridge.ring record).1 = true

/-- Every ACK in flight will be accepted, and the acknowledged tail mirrors
the tail of the ring, or there is something left to acknowledge. -/
structure ReclaimInv (s : CursorSystem) : Prop where
  base : CursorInv s
  generation : ∀ c phase, s.reader = .ready c phase →
    c.generation = s.bridge.generation
  current : ∀ ack ∈ s.channel, ack.generation = s.bridge.generation
  mirror : ∀ c phase, s.reader = .ready c phase →
    lastAck s.tail s.channel = c.acknowledgedTail ∨
      c.acknowledgedTail.toNat < s.accepted.length
  ready : ∃ c phase, s.reader = .ready c phase

namespace ReclaimInv

/-- A step keeps the reclaim invariant if it keeps the generations, the
tail, the channel and the acknowledged tail, and takes no record back. -/
private theorem frame_aux {phase phase' : ReadPhase} {c' : Cursor}
    (h : ReclaimInv s) (hbase : CursorInv t)
    (hs : s.reader = .ready c phase) (ht : t.reader = .ready c' phase')
    (hgen : c'.generation = c.generation)
    (hacked : c'.acknowledgedTail = c.acknowledgedTail)
    (hbridge : t.bridge.generation = s.bridge.generation)
    (htail : t.tail = s.tail) (hchannel : t.channel = s.channel)
    (haccepted : s.accepted.length ≤ t.accepted.length) : ReclaimInv t where
  base := hbase
  generation := by
    intro d p hd
    rw [ht] at hd
    cases hd
    rw [hgen, hbridge]
    exact h.generation c phase hs
  current := by
    rw [hchannel, hbridge]
    exact h.current
  mirror := by
    intro d p hd
    rw [ht] at hd
    cases hd
    rw [hacked, htail, hchannel]
    exact (h.mirror c phase hs).imp_right fun hlt => hlt.trans_le haccepted
  ready := ⟨c', phase', ht⟩

theorem sendAck (h : ReclaimInv s) (hreader : s.reader = .ready c .idle)
    (send : IoResult) (hbase : CursorInv (s.sendAck c send)) :
    ReclaimInv (s.sendAck c send) := by
  unfold CursorSystem.sendAck at hbase ⊢
  split at hbase
  · exact h
  · rename_i c' message hsent
    simp only [cursorAck] at hsent
    split at hsent
    · cases hsent
    split at hsent
    · cases hsent
      exact h.frame_aux hbase hreader rfl rfl rfl rfl rfl (List.append_nil _)
        (Nat.le_refl _)
    · cases send with
      | failed errno => cases hsent
      | done =>
        cases hsent
        refine ⟨hbase, ?_, ?_, ?_, ⟨_, _, rfl⟩⟩
        · intro d p hd
          cases hd
          exact h.generation c .idle hreader
        · intro ack hmem
          rcases List.mem_append.1 hmem with hold | hnew
          · exact h.current ack hold
          · rw [List.eq_of_mem_singleton hnew]
            exact h.generation c .idle hreader
        · intro d p hd
          cases hd
          exact .inl (lastAck_append _ _ _)

/-- An ACK in flight is accepted, so its position becomes the tail. -/
theorem deliver (h : ReclaimInv s) {ack : AckMessage} {rest : List AckMessage}
    (hchannel : s.channel = ack :: rest) (nowNs : UInt64) (urgent : IoResult)
    (hbase : CursorInv (s.deliver ack rest nowNs urgent)) :
    ReclaimInv (s.deliver ack rest nowNs urgent) := by
  obtain ⟨c, phase, hreader⟩ := h.ready
  have hr := h.base.reader
  rw [hreader] at hr
  obtain ⟨hacks, hack, hlocal, -⟩ := hr
  rw [hchannel] at hacks
  have hvalid : ackValid (countControlMessage s.bridge) ack = true := by
    have hring : Represents (countControlMessage s.bridge).ring s.accepted :=
      h.base.ring.sameWindow ⟨rfl, rfl, rfl, rfl⟩
    refine (ackValid_iff hring).2 ⟨?_, hacks.head_bounds.1, ?_⟩
    · exact h.current ack (hchannel ▸ List.mem_cons_self)
    · exact hacks.head_bounds.2.trans (hack.trans hlocal)
  rw [deliver_eq] at hbase ⊢
  have hgeneration : (handleAck (countControlMessage s.bridge) ack nowNs
      urgent).generation = s.bridge.generation := handleAck_generation nowNs urgent
  have htail : (handleAck (countControlMessage s.bridge) ack nowNs
      urgent).ring.consumer.tail = ack.consumedTail :=
    handleAck_tail_of_valid hvalid nowNs urgent
  refine ⟨hbase, ?_, ?_, ?_, ⟨c, phase, hreader⟩⟩
  · intro d p hd
    exact (h.generation d p hd).trans hgeneration.symm
  · intro a ha
    show a.generation = (handleAck (countControlMessage s.bridge) ack nowNs
      urgent).generation
    rw [hgeneration]
    exact h.current a (hchannel ▸ List.mem_cons_of_mem _ ha)
  · intro d p hd
    have hmirror := h.mirror d p hd
    rw [hchannel] at hmirror
    show lastAck (handleAck (countControlMessage s.bridge) ack nowNs
      urgent).ring.consumer.tail rest = _ ∨ _
    rw [htail]
    exact hmirror

/-- Every step that does not reconnect keeps the reclaim invariant. -/
theorem step (h : ReclaimInv s) {label : CursorLabel}
    (hstep : CursorStep s label t) (hlabel : label.isReconnect = false)
    (hlt : t.accepted.length < 2 ^ 64) : ReclaimInv t := by
  have hbase := h.base.step hstep hlt
  have hgrow := hstep.accepted_extends.length_le
  obtain ⟨c, phase, hready⟩ := h.ready
  cases hstep with
  | publishLoad | publishDrop | publishWrite | publishStore =>
    exact h.frame_aux hbase hready hready rfl rfl rfl rfl rfl hgrow
  | initHead hreader | initTail hreader =>
    rw [hready] at hreader
    cases hreader
  | drain hreader | latchPass hreader =>
    unfold startRead at hbase hgrow ⊢
    split at hbase <;>
      exact h.frame_aux hbase hreader rfl rfl rfl rfl rfl rfl (Nat.le_refl _)
  | latch hreader | latchCheck hreader | copy hreader | advance hreader =>
    exact h.frame_aux hbase hreader rfl rfl rfl rfl rfl rfl hgrow
  | ack hreader => exact h.sendAck hreader _ hbase
  | deliver hchannel => exact h.deliver hchannel _ _ hbase
  | gone =>
    have hquiet := quiet_markDeviceGone s.bridge
    exact h.frame_aux hbase hready hready rfl rfl (hquiet _ _).generation
      (hquiet _ _).window.tail rfl hgrow
  | reconnect => cases hlabel

theorem run (h : ReclaimInv s) {labels : List CursorLabel}
    (hrun : fixedGeneration.run s labels = some t)
    (hlt : t.accepted.length < 2 ^ 64) : ReclaimInv t := by
  have hmono : ∀ u label v, fixedGeneration.step u label = some v →
      u.accepted.length ≤ v.accepted.length := by
    intro u label v hstep
    exact cursorMachine_mono (Machine.guard_step.1 hstep).2
  have hkeep : ∀ u label v, ReclaimInv u → v.accepted.length < 2 ^ 64 →
      fixedGeneration.step u label = some v → ReclaimInv v := by
    intro u label v hu hv hstep
    obtain ⟨hlabel, hstep⟩ := Machine.guard_step.1 hstep
    exact hu.step (cursorStep_cases hstep) hlabel hv
  exact Machine.run_invariant_below ReclaimInv (fun u => u.accepted.length)
    hmono hkeep h hrun hlt

/-- Nothing left to read and nothing left to acknowledge leaves nothing in
the ring. -/
theorem reclaimed (h : ReclaimInv s) (hread : s.FullyRead) : s.Reclaimed := by
  obtain ⟨c, hreader, hlocal, hack, hchannel⟩ := hread
  have hacked : c.acknowledgedTail = c.localTail :=
    (cursorAck_acknowledged hack).2
  have htail : s.tail = s.head := by
    rcases h.mirror c .idle hreader with hmirror | hlt
    · rw [hchannel] at hmirror
      exact hmirror.trans (hacked.trans hlocal)
    · have hhead : s.head.toNat = s.accepted.length := h.base.ring.head
      rw [hacked, hlocal] at hlt
      omega
  refine ⟨htail, fun record => ?_⟩
  have hlength : s.tail.toNat = s.accepted.length := by
    rw [htail]
    exact h.base.ring.head
  have hpositive : 0 < s.bridge.ring.metadata.capacity.toNat := by
    obtain ⟨k, -, hk⟩ := exists_pow_of_isPowerOfTwoU32 h.base.ring.pow2
    rw [hk]
    exact Nat.two_pow_pos k
  have hroom : s.accepted.length < s.bridge.ring.consumer.tail.toNat +
      s.bridge.ring.metadata.capacity.toNat := by
    rw [CursorSystem.tail] at hlength
    omega
  rw [ringPublish_of_room record h.base.ring hroom]

end ReclaimInv

/-- A fresh cursor of the current generation satisfies the reclaim
invariant, unless it skips unread records and the head stands still. -/
theorem reclaimInv_makeCursor (h : CursorInv s)
    (hreader : s.reader = .headLoaded head) (fd : Int32)
    {beginAtCurrentHead : Bool}
    (hgood : beginAtCurrentHead = false ∨ s.tail = head ∨ head ≠ s.head) :
    ReclaimInv (s.makeCursor fd s.bridge.generation beginAtCurrentHead head) := by
  have hr := h.reader
  rw [hreader] at hr
  obtain ⟨hchannel, -, -, hhi⟩ := hr
  refine ⟨h.makeCursor hreader _ _ _, ?_, ?_, ?_, ⟨_, _, rfl⟩⟩
  · intro c phase hc
    cases hc
    rfl
  · intro ack hmem
    have : ack ∈ s.channel := hmem
    rw [hchannel] at this
    exact absurd this List.not_mem_nil
  · intro c phase hc
    cases hc
    show lastAck s.tail s.channel = _ ∨ _
    rw [hchannel]
    rcases hgood with rfl | htail | hmoved
    · exact .inl rfl
    · left
      cases beginAtCurrentHead with
      | true => exact htail
      | false => rfl
    · cases beginAtCurrentHead with
      | false => exact .inl rfl
      | true =>
        right
        show head.toNat < s.accepted.length
        refine Nat.lt_of_le_of_ne hhi fun heq => hmoved ?_
        rw [← UInt64.toNat_inj, heq]
        exact h.ring.head.symm

end CursorSystem

/-- A cursor of the current generation keeps a ring reclaimable, in every
run without a reconnect, if and only if it begins at the tail, or the ring
had no unread record, or the head has moved on while the cursor was
made. -/
theorem reclaimable_iff {b : Bridge} {log : List Record}
    {generations : List UInt64} (h : Represents b.ring log)
    (hlength : generations.length = log.length)
    {labels : List CursorLabel} {s : CursorSystem} {head : UInt64}
    (hrun : cursorMachine.run (CursorSystem.initial b log generations) labels =
      some s)
    (hlt : s.accepted.length < 2 ^ 64) (hreader : s.reader = .headLoaded head)
    {fd : Int32} (hfd : ¬ fd < 0) {beginAtCurrentHead : Bool} :
    (∀ labels' t, fixedGeneration.run
        (s.makeCursor fd s.bridge.generation beginAtCurrentHead head) labels' =
          some t →
      t.accepted.length < 2 ^ 64 → t.FullyRead → t.Reclaimed) ↔
    (beginAtCurrentHead = false ∨ s.tail = head ∨ head ≠ s.head) := by
  have hinv := cursorInv_run (cursorInv_initial h hlength) hrun hlt
  constructor
  · intro hall
    by_contra hbad
    simp only [not_or, not_not, Bool.not_eq_false] at hbad
    obtain ⟨rfl, htail, rfl⟩ := hbad
    -- The cursor is fully read at once, and the tail is not the head.
    have hread : (s.makeCursor fd s.bridge.generation true s.head).FullyRead := by
      have hr := hinv.reader
      rw [hreader] at hr
      refine ⟨_, rfl, rfl, ?_, hr.1⟩
      simp only [cursorAck, startCursor, hfd, if_false, if_true, beq_self_eq_true]
    exact htail (hall [] _ rfl hlt hread).1
  · intro hgood labels' t hrun' ht hread
    have hfresh := CursorSystem.reclaimInv_makeCursor hinv hreader fd hgood
    exact (hfresh.run hrun' ht).reclaimed hread

/-- One publication into a ring of one slot. -/
def publishOne : List CursorLabel :=
  [.publishLoad (blankRecord 1 HFIOR_RECORD_MOTION), .publishWrite, .publishStore]

theorem reclaimable_iff_begin_at_tail :
    ∃ s, cursorMachine.run (.initial (freshBridge 1) [] [])
        (publishOne ++ [.initHead]) = some s ∧
      ((∀ labels' t, fixedGeneration.run
          (s.makeCursor 5 s.bridge.generation false 1) labels' = some t →
        t.accepted.length < 2 ^ 64 → t.FullyRead → t.Reclaimed) ↔
      (false = false ∨ s.tail = 1 ∨ 1 ≠ s.head)) := by
  have hrun : cursorMachine.run (.initial (freshBridge 1) [] [])
      (publishOne ++ [.initHead]) = some _ := rfl
  have hring : Represents (freshBridge 1).ring [] :=
    represents_freshHeader (by decide) _ _ _ _
  exact ⟨_, hrun, reclaimable_iff hring rfl hrun (by decide) rfl (by decide)⟩

/-- A cursor that begins at the head of a full ring of one slot: it has
nothing to read and nothing to acknowledge, and every publish is dropped. -/
theorem full_ring_never_reclaimed :
    ∃ s, cursorMachine.run (.initial (freshBridge 1) [] [])
        (publishOne ++ [.initHead, .initTail 5 1 true]) = some s ∧
      s.FullyRead ∧ ¬ s.Reclaimed ∧
      ∀ record, (ringPublish s.bridge.ring record).1 = false := by
  refine ⟨_, rfl, ⟨_, rfl, rfl, rfl, rfl⟩, ?_, fun _ => rfl⟩
  rintro ⟨htail, -⟩
  exact absurd htail (by decide)

end Hfior
