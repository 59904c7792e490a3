import Hfior.AckChannel
import Hfior.Cursor.System

/-!
# The invariant of the cursor machine

Four positions are kept in order: the tail of the ring, the ACKs in flight,
the acknowledged tail of the cursor, its local tail, and the head.  The
slots from the tail on hold the accepted records, so the slots that the
reader copies are below the head and are not the slot that the producer
writes.

`CursorInv` says this, and `cursorInv_run` is its induction over a run.
-/

namespace Hfior

/-- What the producer has loaded is still good: the head is its own, the
loaded tail is not above the tail, and a written slot is the slot of the
head in a window with room. -/
def ProducerInv (r : RingHeader) : ProducerPc → Prop
  | .idle => True
  | .loaded _ head tail =>
    head = r.producer.head ∧ tail.toNat ≤ r.consumer.tail.toNat
  | .wrote record head =>
    head = r.producer.head ∧
    head.toNat < r.consumer.tail.toNat + r.metadata.capacity.toNat ∧
    r.records (slotIndex r.metadata.capacity head) = record

/-- The part of a drain that is done copied the accepted records. -/
def PhaseInv (accepted : List Record) (localTail : Nat) : ReadPhase → Prop
  | .copying available copied _ =>
    localTail + available.toNat ≤ accepted.length ∧
    copied.length ≤ available.toNat ∧
    copied = slice accepted localTail (localTail + copied.length)
  | _ => True

/-- The reader has been given the accepted records from its start to its
local tail, and everything that it has read is above the tail. -/
def ReaderInv (s : CursorSystem) : Reader → Prop
  | .absent => s.channel = [] ∧ s.returned = []
  | .headLoaded head => s.channel = [] ∧ s.returned = [] ∧
    s.tail.toNat ≤ head.toNat ∧ head.toNat ≤ s.accepted.length
  | .ready c phase =>
    AcksInOrder s.tail.toNat s.channel c.acknowledgedTail.toNat ∧
    c.acknowledgedTail.toNat ≤ c.localTail.toNat ∧
    c.localTail.toNat ≤ s.accepted.length ∧
    s.start ≤ c.localTail.toNat ∧
    s.returned = slice s.accepted s.start c.localTail.toNat ∧
    PhaseInv s.accepted c.localTail.toNat phase

/-- The invariant of the machine. -/
structure CursorInv (s : CursorSystem) : Prop where
  ring : Represents s.bridge.ring s.accepted
  generations : s.generations.length = s.accepted.length
  producer : ProducerInv s.bridge.ring s.producer
  reader : ReaderInv s s.reader

/-! ## What a step of one side leaves of the other -/

theorem ProducerInv.mono {r r' : RingHeader} {pc : ProducerPc}
    (h : ProducerInv r pc) (hmeta : r'.metadata = r.metadata)
    (hhead : r'.producer.head = r.producer.head)
    (hrecords : r'.records = r.records)
    (htail : r.consumer.tail.toNat ≤ r'.consumer.tail.toNat) :
    ProducerInv r' pc := by
  cases pc with
  | idle => trivial
  | loaded record head tail =>
    obtain ⟨hh, ht⟩ := h
    exact ⟨hh.trans hhead.symm, ht.trans htail⟩
  | wrote record head =>
    obtain ⟨hh, hroom, hslot⟩ := h
    refine ⟨hh.trans hhead.symm, ?_, ?_⟩
    · rw [hmeta]
      omega
    · rw [hmeta, hrecords]
      exact hslot

theorem ProducerInv.sameWindow {r r' : RingHeader} {pc : ProducerPc}
    (h : ProducerInv r pc) (hr : SameWindow r r') : ProducerInv r' pc :=
  h.mono hr.metadata hr.head hr.records (by rw [hr.tail])

theorem PhaseInv.append {accepted : List Record} {localTail : Nat}
    {phase : ReadPhase} (h : PhaseInv accepted localTail phase) (record : Record) :
    PhaseInv (accepted ++ [record]) localTail phase := by
  cases phase with
  | copying available copied latch =>
    obtain ⟨hle, hlen, hcopied⟩ := h
    refine ⟨?_, hlen, ?_⟩
    · rw [List.length_append]
      omega
    · rw [slice_append_left (by omega)]
      exact hcopied
  | idle => trivial
  | latchPass l => trivial
  | latchCheck l => trivial

/-- A step that keeps the tail and accepts at most one record keeps the
reader. -/
theorem ReaderInv.accept {s t : CursorSystem} {reader : Reader}
    (h : ReaderInv s reader) (record : Record) (htail : t.tail = s.tail)
    (hchannel : t.channel = s.channel) (hreturned : t.returned = s.returned)
    (hstart : t.start = s.start) (haccepted : t.accepted = s.accepted ++ [record]) :
    ReaderInv t reader := by
  have hlength : s.accepted.length ≤ t.accepted.length := by
    rw [haccepted, List.length_append]
    omega
  cases reader with
  | absent => exact ⟨hchannel ▸ h.1, hreturned ▸ h.2⟩
  | headLoaded head =>
    obtain ⟨hc, hr, hlo, hhi⟩ := h
    exact ⟨hchannel ▸ hc, hreturned ▸ hr, htail ▸ hlo, hhi.trans hlength⟩
  | ready c phase =>
    obtain ⟨hacks, hack, hlocal, hs, hr, hphase⟩ := h
    refine ⟨by rw [htail, hchannel]; exact hacks, hack, hlocal.trans hlength,
      hstart ▸ hs, ?_, ?_⟩
    · rw [hreturned, hstart, haccepted, slice_append_left hlocal]
      exact hr
    · rw [haccepted]
      exact hphase.append record

/-- A step that keeps the tail, the channel and the accepted records keeps
the reader. -/
theorem ReaderInv.frame {s t : CursorSystem} {reader : Reader}
    (h : ReaderInv s reader) (htail : t.tail = s.tail)
    (hchannel : t.channel = s.channel) (hreturned : t.returned = s.returned)
    (hstart : t.start = s.start) (haccepted : t.accepted = s.accepted) :
    ReaderInv t reader := by
  cases reader with
  | absent => exact ⟨hchannel ▸ h.1, hreturned ▸ h.2⟩
  | headLoaded head =>
    rw [ReaderInv, htail, hchannel, hreturned, haccepted]
    exact h
  | ready c phase =>
    rw [ReaderInv, htail, hchannel, hreturned, haccepted, hstart]
    exact h

/-! ## One lemma for each step -/

namespace CursorInv

open CursorSystem

variable {s : CursorSystem} {c : Cursor} {record : Record} {head tail : UInt64}
  {latch : Option Latch}

/-- Only the bridge changes, and its window does not. -/
private theorem bridge_aux (h : CursorInv s) {b : Bridge}
    (hb : SameWindow s.bridge.ring b.ring) : CursorInv { s with bridge := b } where
  ring := h.ring.sameWindow hb
  generations := h.generations
  producer := h.producer.sameWindow hb
  reader := h.reader.frame hb.tail rfl rfl rfl rfl

theorem publishLoad (h : CursorInv s) (record : Record) :
    CursorInv (s.publishLoad record) where
  ring := h.ring
  generations := h.generations
  producer := ⟨rfl, Nat.le_refl _⟩
  reader := h.reader.frame rfl rfl rfl rfl rfl

theorem publishDrop (h : CursorInv s) : CursorInv s.publishDrop where
  ring := h.ring.sameWindow (sameWindow_dropNewest _)
  generations := h.generations
  producer := trivial
  reader := h.reader.frame rfl rfl rfl rfl rfl

/-- The window that a publish has seen has room, since the tail has only
moved up. -/
theorem room_of_loaded (h : CursorInv s)
    (hpc : s.producer = .loaded record head tail)
    (hroom : ringFull s.capacity head tail = false) :
    head = s.head ∧ s.accepted.length <
      s.bridge.ring.consumer.tail.toNat + s.bridge.ring.metadata.capacity.toNat := by
  have hload := h.producer
  rw [hpc] at hload
  obtain ⟨hhead, htail⟩ := hload
  have hlength : head.toNat = s.accepted.length := by rw [hhead, h.ring.head]
  have hle : tail ≤ head := by
    rw [UInt64.le_iff_toNat_le, hlength]
    exact htail.trans h.ring.tail_le
  have := (ringFull_eq_false hle).1 hroom
  rw [CursorSystem.capacity] at this
  exact ⟨hhead, by omega⟩

theorem publishWrite (h : CursorInv s)
    (hpc : s.producer = .loaded record head tail)
    (hroom : ringFull s.capacity head tail = false) :
    CursorInv (s.publishWrite record head) := by
  obtain ⟨hhead, hlt⟩ := h.room_of_loaded hpc hroom
  subst hhead
  refine ⟨h.ring.writeSlot record hlt, h.generations, ⟨rfl, ?_, ?_⟩,
    h.reader.frame rfl rfl rfl rfl rfl⟩
  · show s.bridge.ring.producer.head.toNat < _
    rw [h.ring.head]
    exact hlt
  · exact Function.update_self _ _ _

theorem publishStore (h : CursorInv s) (hpc : s.producer = .wrote record head)
    (hlt : (s.publishStore record head).accepted.length < 2 ^ 64) :
    CursorInv (s.publishStore record head) := by
  have hwrote := h.producer
  rw [hpc] at hwrote
  obtain ⟨hhead, hroom, hslot⟩ := hwrote
  subst hhead
  rw [h.ring.head] at hroom
  rw [h.ring.slotIndex_head] at hslot
  refine ⟨h.ring.storeHead hroom hslot (by simpa [CursorSystem.publishStore] using hlt),
    ?_, trivial, h.reader.accept record rfl rfl rfl rfl rfl⟩
  simp only [CursorSystem.publishStore, List.length_append, List.length_singleton,
    h.generations]

theorem initHead (h : CursorInv s) (hreader : s.reader = .absent) :
    CursorInv { s with reader := .headLoaded s.head } := by
  have hr := h.reader
  rw [hreader] at hr
  refine ⟨h.ring, h.generations, h.producer, hr.1, hr.2, ?_, ?_⟩
  · exact UInt64.le_iff_toNat_le.1 h.ring.tail_le_head
  · exact Nat.le_of_eq h.ring.head

theorem makeCursor (h : CursorInv s) (hreader : s.reader = .headLoaded head)
    (fd : Int32) (generation : UInt64) (beginAtCurrentHead : Bool) :
    CursorInv (s.makeCursor fd generation beginAtCurrentHead head) := by
  have hr := h.reader
  rw [hreader] at hr
  obtain ⟨hchannel, hreturned, hlo, hhi⟩ := hr
  refine ⟨h.ring, h.generations, h.producer, ?_⟩
  -- Both ends of the window are good starting positions.
  have hstart : s.tail.toNat ≤ (startCursor fd generation beginAtCurrentHead head
        s.tail).localTail.toNat ∧
      (startCursor fd generation beginAtCurrentHead head
        s.tail).localTail.toNat ≤ s.accepted.length := by
    cases beginAtCurrentHead with
    | true => exact ⟨hlo, hhi⟩
    | false => exact ⟨Nat.le_refl _, h.ring.tail_le⟩
  refine ⟨?_, Nat.le_refl _, hstart.2, Nat.le_refl _, ?_, trivial⟩
  · show AcksInOrder _ s.channel _
    rw [hchannel, AcksInOrder.nil_iff]
    exact hstart.1
  · show s.returned = _
    rw [hreturned]
    exact slice_self.symm

/-- The reader is inside the window, so its bound checks succeed. -/
theorem available (h : CursorInv s) {phase : ReadPhase}
    (hreader : s.reader = .ready c phase) (maxRecords : UInt64) :
    ∃ n, snapshotAvailable s.capacity s.head c.localTail maxRecords = .ok n ∧
      c.localTail.toNat + n.toNat ≤ s.accepted.length := by
  have hr := h.reader
  rw [hreader] at hr
  obtain ⟨hacks, hack, hlocal, -⟩ := hr
  obtain ⟨n, hn, hcount⟩ := snapshotAvailable_eq h.ring
    (hacks.tail_le.trans hack) hlocal maxRecords
  exact ⟨n, hn, by omega⟩

theorem startRead (h : CursorInv s) {phase : ReadPhase}
    (hreader : s.reader = .ready c phase) (maxRecords : UInt64)
    (latch : Option Latch) : CursorInv (s.startRead c maxRecords latch) := by
  obtain ⟨n, hn, hle⟩ := h.available hreader maxRecords
  have hr := h.reader
  rw [hreader] at hr
  obtain ⟨hacks, hack, hlocal, hs, hreturned, -⟩ := hr
  simp only [CursorSystem.startRead, hn]
  refine ⟨h.ring, h.generations, h.producer, hacks, hack, hlocal, hs, hreturned,
    hle, Nat.zero_le _, ?_⟩
  exact slice_self.symm

theorem copyNext (h : CursorInv s) {n : UInt64} {copied : List Record}
    (hreader : s.reader = .ready c (.copying n copied latch))
    (hlt : copied.length < n.toNat) : CursorInv (s.copyNext c n copied latch) := by
  have hr := h.reader
  rw [hreader] at hr
  obtain ⟨hacks, hack, hlocal, hs, hreturned, hle, -, hcopied⟩ := hr
  have hof : (UInt64.ofNat copied.length).toNat = copied.length :=
    UInt64.toNat_ofNat_of_lt' (hlt.trans n.toNat_lt)
  have hi : c.localTail.toNat + copied.length < s.accepted.length := by omega
  have hslot : copySlot s.ring c.localTail (UInt64.ofNat copied.length) =
      s.accepted[c.localTail.toNat + copied.length] := by
    have := copySlot_eq (i := UInt64.ofNat copied.length) h.ring
      (hacks.tail_le.trans hack) (by omega)
    simp only [hof] at this
    exact this
  refine ⟨h.ring, h.generations, h.producer, hacks, hack, hlocal, hs, hreturned,
    hle, ?_, ?_⟩
  · rw [List.length_append, List.length_singleton]
    exact hlt
  · show copied ++ [copySlot s.ring c.localTail (UInt64.ofNat copied.length)] =
      slice s.accepted c.localTail.toNat _
    rw [List.length_append, List.length_singleton, ← Nat.add_assoc,
      slice_succ (Nat.le_add_right _ _) hi, ← hcopied, hslot]

theorem advance (h : CursorInv s) {n : UInt64} {copied : List Record}
    (hreader : s.reader = .ready c (.copying n copied latch))
    (heq : copied.length = n.toNat) : CursorInv (s.advance c n copied latch) := by
  have hr := h.reader
  rw [hreader] at hr
  obtain ⟨hacks, hack, hlocal, hs, hreturned, hle, -, hcopied⟩ := hr
  have hsum : (c.localTail + n).toNat = c.localTail.toNat + n.toNat := by
    rw [UInt64.toNat_add, Nat.mod_eq_of_lt]
    exact Nat.lt_of_le_of_lt hle h.ring.head_lt
  refine ⟨h.ring, h.generations, h.producer, hacks, ?_, ?_, ?_, ?_, ?_⟩
  · show c.acknowledgedTail.toNat ≤ (c.localTail + n).toNat
    omega
  · show (c.localTail + n).toNat ≤ s.accepted.length
    omega
  · show s.start ≤ (c.localTail + n).toNat
    omega
  · show s.returned ++ copied = slice s.accepted s.start (c.localTail + n).toNat
    rw [hsum, ← slice_append_slice hs (Nat.le_add_right _ _), ← hreturned,
      ← heq, ← hcopied]
  · cases latch <;> trivial

/-- The control flow of a stable latch moves no position. -/
private theorem phase_aux (h : CursorInv s) {phase phase' : ReadPhase}
    (hreader : s.reader = .ready c phase)
    (hphase : PhaseInv s.accepted c.localTail.toNat phase') :
    CursorInv { s with reader := .ready c phase' } := by
  have hr := h.reader
  rw [hreader] at hr
  obtain ⟨hacks, hack, hlocal, hs, hreturned, -⟩ := hr
  exact ⟨h.ring, h.generations, h.producer, hacks, hack, hlocal, hs, hreturned,
    hphase⟩

theorem enterLatch (h : CursorInv s) {phase : ReadPhase}
    (hreader : s.reader = .ready c phase) (maxRecords : UInt64)
    (maxPasses : UInt32) : CursorInv (s.enterLatch c maxRecords maxPasses) := by
  refine h.phase_aux hreader ?_
  cases latchStart maxRecords maxPasses with
  | error e => trivial
  | ok l =>
    show PhaseInv _ _ (if l.continues then _ else _)
    split <;> trivial

theorem checkLatch (h : CursorInv s) {phase : ReadPhase}
    (hreader : s.reader = .ready c phase) (l : Latch) :
    CursorInv (s.checkLatch c l) := by
  refine h.phase_aux hreader ?_
  split <;> trivial

theorem sendAck (h : CursorInv s) (hreader : s.reader = .ready c .idle)
    (send : IoResult) : CursorInv (s.sendAck c send) := by
  have hr := h.reader
  rw [hreader] at hr
  obtain ⟨hacks, hack, hlocal, hs, hreturned, -⟩ := hr
  unfold CursorSystem.sendAck
  split
  · exact h
  · rename_i c' message hsent
    simp only [cursorAck] at hsent
    split at hsent
    · cases hsent
    split at hsent
    · cases hsent
      refine ⟨h.ring, h.generations, h.producer, ?_, hack, hlocal, hs, hreturned,
        trivial⟩
      show AcksInOrder _ (s.channel ++ []) _
      rw [List.append_nil]
      exact hacks
    · cases send with
      | failed errno => cases hsent
      | done =>
        cases hsent
        have horder := hacks.send ⟨c.generation, c.localTail⟩ hack
        exact ⟨h.ring, h.generations, h.producer, horder, Nat.le_refl _, hlocal, hs,
          hreturned, trivial⟩

theorem deliver (h : CursorInv s) {ack : AckMessage} {rest : List AckMessage}
    (hchannel : s.channel = ack :: rest) (nowNs : UInt64) (urgent : IoResult) :
    CursorInv (s.deliver ack rest nowNs urgent) := by
  have hcount : Represents (countControlMessage s.bridge).ring s.accepted :=
    h.ring.sameWindow ⟨rfl, rfl, rfl, rfl⟩
  rw [CursorSystem.deliver_eq]
  have hring := represents_handleAck hcount ack nowNs urgent
  obtain ⟨hmeta, hhead, hrecords⟩ :=
    handleAck_frame (countControlMessage s.bridge) ack nowNs urgent
  -- An ACK is in flight, so there is a cursor, and the ACK is not below the
  -- tail.
  have hr := h.reader
  cases hreader : s.reader with
  | absent =>
    rw [hreader] at hr
    exact absurd (hchannel ▸ hr.1) (List.cons_ne_nil _ _)
  | headLoaded head =>
    rw [hreader] at hr
    exact absurd (hchannel ▸ hr.1) (List.cons_ne_nil _ _)
  | ready c phase =>
    rw [hreader] at hr
    obtain ⟨hacks, hack, hlocal, hs, hreturned, hphase⟩ := hr
    rw [hchannel] at hacks
    obtain ⟨horder, hmono⟩ :=
      AcksInOrder.deliver (b := countControlMessage s.bridge) hacks nowNs urgent
    exact ⟨hring, h.generations, h.producer.mono hmeta hhead hrecords hmono,
      horder, hack, hlocal, hs, hreturned, hphase⟩

theorem loseDevice (h : CursorInv s) (send urgent : IoResult) :
    CursorInv (s.loseDevice send urgent) :=
  h.bridge_aux (quiet_markDeviceGone s.bridge send urgent).window

theorem reconnect (h : CursorInv s) (fd : Int32) (send urgent : IoResult) :
    CursorInv (s.reconnect fd send urgent) := by
  have hb : SameWindow s.bridge.ring
      (tryReconnectDevice s.bridge fd send urgent).2.1.ring := by
    rcases tryReconnectDevice_cases s.bridge send urgent fd with hquiet | hnext
    · exact hquiet.window
    · exact hnext.window
  exact ⟨h.ring.sameWindow hb, h.generations, h.producer.sameWindow hb,
    h.reader.frame hb.tail rfl rfl rfl rfl⟩

/-- Every step keeps the invariant, as long as the head does not wrap. -/
theorem step (h : CursorInv s) {t : CursorSystem} {label : CursorLabel}
    (hstep : CursorStep s label t) (hlt : t.accepted.length < 2 ^ 64) :
    CursorInv t := by
  cases hstep with
  | publishLoad hpc => exact h.publishLoad _
  | publishDrop hpc hfull => exact h.publishDrop
  | publishWrite hpc hroom => exact h.publishWrite hpc hroom
  | publishStore hpc => exact h.publishStore hpc hlt
  | initHead hreader hvalid => exact h.initHead hreader
  | initTail hreader => exact h.makeCursor hreader _ _ _
  | drain hreader => exact h.startRead hreader _ _
  | latch hreader => exact h.enterLatch hreader _ _
  | latchPass hreader => exact h.startRead hreader _ _
  | latchCheck hreader => exact h.checkLatch hreader _
  | copy hreader hlt' => exact h.copyNext hreader hlt'
  | advance hreader heq => exact h.advance hreader heq
  | ack hreader => exact h.sendAck hreader _
  | deliver hchannel => exact h.deliver hchannel _ _
  | gone => exact h.loseDevice _ _
  | reconnect => exact h.reconnect _ _ _

end CursorInv

/-- The records accepted so far are not taken back. -/
theorem CursorStep.accepted_extends {s t : CursorSystem} {label : CursorLabel}
    (hstep : CursorStep s label t) : s.accepted <+: t.accepted := by
  cases hstep with
  | publishStore hpc => exact List.prefix_append _ _
  | drain hreader | latchPass hreader =>
    simp only [CursorSystem.startRead]
    split <;> exact List.prefix_refl _
  | ack hreader =>
    simp only [CursorSystem.sendAck]
    split <;> exact List.prefix_refl _
  | deliver hchannel =>
    rw [CursorSystem.deliver_eq]
  | _ => exact List.prefix_refl _

theorem cursorMachine_mono {s t : CursorSystem} {label : CursorLabel}
    (hstep : cursorMachine.step s label = some t) :
    s.accepted.length ≤ t.accepted.length :=
  (cursorStep_cases hstep).accepted_extends.length_le

/-- A ring that represents a log satisfies the invariant before the cursor
is made. -/
theorem cursorInv_initial {b : Bridge} {log : List Record}
    {generations : List UInt64} (h : Represents b.ring log)
    (hlength : generations.length = log.length) :
    CursorInv (CursorSystem.initial b log generations) :=
  ⟨h, hlength, trivial, rfl, rfl⟩

/-- The invariant holds along every run with fewer than 2^64 accepted
records. -/
theorem cursorInv_run {s t : CursorSystem} {labels : List CursorLabel}
    (h : CursorInv s) (hrun : cursorMachine.run s labels = some t)
    (hlt : t.accepted.length < 2 ^ 64) : CursorInv t :=
  Machine.run_invariant_below CursorInv (fun u => u.accepted.length)
    (fun _ _ _ hstep => cursorMachine_mono hstep)
    (fun _ _ _ hu hv hstep => hu.step (cursorStep_cases hstep) hv) h hrun hlt

end Hfior
