import Hfior.Cursor.Invariant

/-!
# Exactly-once delivery over the read-only ring

The steps of `cursorMachine` are the parts of the functions of the source:
`run_publish`, `run_init` and `run_drain` say that, run without
interruption, they are `hfior_ring_publish`, `hfior_cursor_init` and
`hfior_cursor_drain`.

`exactly_once_in_order` is about every interleaving.  The returned records
and the unread ones are the accepted records from the start of the cursor
on, no slot is copied while it is written, and no drain is rejected.
-/

namespace Hfior

namespace CursorSystem

variable {s : CursorSystem} {c : Cursor}

/-! ## Uninterrupted calls -/

/-- The steps of a publication, run at once, are `hfior_ring_publish`. -/
theorem run_publish (hpc : s.producer = .idle) (record : Record) :
    ∃ labels t, cursorMachine.run s (.publishLoad record :: labels) = some t ∧
      t.bridge.ring = (ringPublish s.bridge.ring record).2 ∧
      t.producer = .idle ∧
      t.accepted = if (ringPublish s.bridge.ring record).1 then
        s.accepted ++ [record] else s.accepted := by
  have hload : cursorMachine.step s (.publishLoad record) =
      some (s.publishLoad record) := by
    simp only [cursorMachine, cursorStep, hpc]
  cases hfull : ringFull s.capacity s.head s.tail with
  | true =>
    have hresult : ringPublish s.bridge.ring record =
        (false, dropNewest s.bridge.ring) := if_pos hfull
    refine ⟨[.publishWrite], (s.publishLoad record).publishDrop, ?_, ?_, rfl, ?_⟩
    · have hdrop : cursorMachine.step (s.publishLoad record) .publishWrite =
          some (s.publishLoad record).publishDrop := if_pos hfull
      exact Machine.run_cons.2 ⟨_, hload, Machine.run_cons.2 ⟨_, hdrop, rfl⟩⟩
    · rw [hresult]
      rfl
    · rw [hresult]
      rfl
  | false =>
    have hnot : ¬ ringFull s.capacity s.head s.tail = true := by
      rw [hfull]
      exact Bool.false_ne_true
    have hresult : ringPublish s.bridge.ring record =
        (true, storeHead (writeSlot s.bridge.ring s.head record) s.head record) :=
      if_neg hnot
    refine ⟨[.publishWrite, .publishStore],
      ((s.publishLoad record).publishWrite record s.head).publishStore record s.head,
      ?_, ?_, rfl, ?_⟩
    · have hwrite : cursorMachine.step (s.publishLoad record) .publishWrite =
          some ((s.publishLoad record).publishWrite record s.head) := if_neg hnot
      exact Machine.run_cons.2 ⟨_, hload, Machine.run_cons.2 ⟨_, hwrite,
        Machine.run_cons.2 ⟨_, rfl, rfl⟩⟩⟩
    · rw [hresult]
      rfl
    · rw [hresult]
      rfl

/-- The two loads of an initialisation, run at once, are
`hfior_cursor_init`. -/
theorem run_init (hreader : s.reader = .absent) {fd : Int32} {generation : UInt64}
    {beginAtCurrentHead : Bool}
    (hinit : cursorInit true (some s.ring) fd generation beginAtCurrentHead =
      .ok c) :
    ∃ t, cursorMachine.run s [.initHead, .initTail fd generation beginAtCurrentHead] =
        some t ∧ t.reader = .ready c .idle ∧ t.start = c.localTail.toNat := by
  simp only [cursorInit, Bool.not_true, Bool.false_or] at hinit
  split at hinit
  · cases hinit
  · rename_i hvalid
    rw [Bool.not_eq_true', Bool.not_eq_false] at hvalid
    cases hinit
    have hhead : cursorMachine.step s .initHead =
        some { s with reader := .headLoaded s.head } := by
      simp only [cursorMachine, cursorStep, hreader, if_pos hvalid]
    exact ⟨_, Machine.run_cons.2 ⟨_, hhead, rfl⟩, rfl, rfl⟩

theorem step_copy {n : UInt64} {copied : List Record} {latch : Option Latch}
    (hreader : s.reader = .ready c (.copying n copied latch))
    (hlt : copied.length < n.toNat) :
    cursorMachine.step s .copy = some (s.copyNext c n copied latch) := by
  simp only [cursorMachine, cursorStep, hreader, if_pos hlt]

theorem step_advance {n : UInt64} {copied : List Record} {latch : Option Latch}
    (hreader : s.reader = .ready c (.copying n copied latch))
    (heq : copied.length = n.toNat) :
    cursorMachine.step s .advance = some (s.advance c n copied latch) := by
  simp only [cursorMachine, cursorStep, hreader, if_pos heq]

/-- The copy loop, run at once. -/
theorem run_copies {n : UInt64} {latch : Option Latch}
    (hreader : s.reader = .ready c (.copying n [] latch)) (k : Nat)
    (hk : k ≤ n.toNat) :
    ∃ t, cursorMachine.run s (List.replicate k .copy) = some t ∧
      t.reader = .ready c (.copying n ((List.range k).map fun i =>
        copySlot s.ring c.localTail (UInt64.ofNat i)) latch) ∧
      t.ring = s.ring ∧ t.returned = s.returned := by
  induction k with
  | zero => exact ⟨s, rfl, hreader, rfl, rfl⟩
  | succ k ih =>
    obtain ⟨t, hrun, ht, hring, hreturned⟩ := ih (by omega)
    have hstep := step_copy ht (by rw [List.length_map, List.length_range]; omega)
    have hrun' := Machine.run_append.2
      ⟨t, hrun, Machine.run_cons.2 ⟨_, hstep, Machine.run_nil⟩⟩
    rw [← List.replicate_succ'] at hrun'
    refine ⟨_, hrun', ?_, hring, hreturned⟩
    rw [copyNext, List.length_map, List.length_range, hring, List.range_succ,
      List.map_append]
    rfl

/-- The steps of a drain, run at once, are `hfior_cursor_drain`. -/
theorem run_drain (hreader : s.reader = .ready c .idle) (maxRecords : UInt64)
    {records : List Record} {c' : Cursor}
    (hdrain : cursorDrain (some c) s.ring true maxRecords = .ok (records, c')) :
    ∃ labels t, cursorMachine.run s (.drain maxRecords :: labels) = some t ∧
      t.reader = .ready c' .idle ∧ t.returned = s.returned ++ records := by
  simp only [cursorDrain, ringReadSnapshot, Bool.not_true, Bool.false_and] at hdrain
  cases hn : snapshotAvailable s.capacity s.head c.localTail maxRecords with
  | error e =>
    have hn' : snapshotAvailable s.ring.metadata.capacity s.ring.producer.head
        c.localTail maxRecords = .error e := hn
    rw [hn'] at hdrain
    cases hdrain
  | ok n =>
    have hn' : snapshotAvailable s.ring.metadata.capacity s.ring.producer.head
        c.localTail maxRecords = .ok n := hn
    rw [hn'] at hdrain
    cases hdrain
    have hload : cursorMachine.step s (.drain maxRecords) =
        some (s.startRead c maxRecords none) := by
      simp only [cursorMachine, cursorStep, hreader]
    have hphase : (s.startRead c maxRecords none).reader =
        .ready c (.copying n [] none) := by
      simp only [startRead, hn]
    have hring : (s.startRead c maxRecords none).ring = s.ring := by
      simp only [startRead, hn]
      rfl
    have hreturned : (s.startRead c maxRecords none).returned = s.returned := by
      simp only [startRead, hn]
    obtain ⟨t, hcopies, ht, -, hcopied⟩ := run_copies hphase n.toNat (Nat.le_refl _)
    rw [hring] at ht
    have hadvance := step_advance ht (by simp)
    have hrun : cursorMachine.run s (.drain maxRecords ::
        (List.replicate n.toNat .copy ++ [.advance])) = some _ :=
      Machine.run_cons.2 ⟨_, hload, Machine.run_append.2
        ⟨t, hcopies, Machine.run_cons.2 ⟨_, hadvance, rfl⟩⟩⟩
    refine ⟨_, _, hrun, rfl, ?_⟩
    show t.returned ++ _ = s.returned ++ copySlots s.ring c.localTail n
    rw [hcopied, hreturned]
    rfl

/-! ## Every interleaving -/

/-- The producer is about to write the slot, or it has written it and not
yet stored the head. -/
def WritesSlot (s : CursorSystem) (slot : Nat) : Prop :=
  match s.producer with
  | .idle => False
  | .loaded _ head tail =>
    ringFull s.capacity head tail = false ∧ slotIndex s.capacity head = slot
  | .wrote _ head => slotIndex s.capacity head = slot

/-- Delivery to the cursor is exactly once and in order. -/
structure Delivered (s : CursorSystem) : Prop where
  /-- What was returned, and what is unread, is what was accepted. -/
  history : ∀ c phase, s.reader = .ready c phase →
    s.returned ++ slice s.accepted c.localTail.toNat s.head.toNat =
      s.accepted.drop s.start
  /-- No slot of a running copy loop is being written. -/
  apart : ∀ c n copied latch, s.reader = .ready c (.copying n copied latch) →
    ∀ i < n, ¬ s.WritesSlot (slotIndex s.capacity (c.localTail + i))
  /-- The bound checks of a drain succeed. -/
  admitted : ∀ c phase maxRecords, s.reader = .ready c phase →
    ∃ n, snapshotAvailable s.capacity s.head c.localTail maxRecords = .ok n

/-- The producer writes the slot of the next position only, in a window with
room. -/
theorem writesSlot_eq (h : CursorInv s) {slot : Nat} (hslot : s.WritesSlot slot) :
    s.accepted.length < s.tail.toNat + s.capacity.toNat ∧
      slot = s.accepted.length % s.capacity.toNat := by
  unfold WritesSlot at hslot
  cases hpc : s.producer with
  | idle =>
    rw [hpc] at hslot
    exact hslot.elim
  | loaded record head tail =>
    rw [hpc] at hslot
    obtain ⟨hhead, hroom⟩ := h.room_of_loaded hpc hslot.1
    refine ⟨hroom, ?_⟩
    rw [← hslot.2, hhead]
    exact h.ring.slotIndex_head
  | wrote record head =>
    rw [hpc] at hslot
    have hwrote := h.producer
    rw [hpc] at hwrote
    obtain ⟨hhead, hroom, -⟩ := hwrote
    rw [hhead, h.ring.head] at hroom
    refine ⟨hroom, ?_⟩
    rw [← hslot, hhead]
    exact h.ring.slotIndex_head

theorem delivered_of_inv (h : CursorInv s) : s.Delivered where
  history := by
    intro c phase hreader
    have hr := h.reader
    rw [hreader] at hr
    obtain ⟨-, -, hlocal, hs, hreturned, -⟩ := hr
    have hhead : s.head.toNat = s.accepted.length := h.ring.head
    rw [hreturned, hhead, slice_append_slice hs hlocal,
      slice_eq_drop (Nat.le_refl _)]
  apart := by
    intro c n copied latch hreader i hi hslot
    obtain ⟨hroom, hmod⟩ := writesSlot_eq h hslot
    have hr := h.reader
    rw [hreader] at hr
    obtain ⟨hacks, hack, -, -, -, hle, -⟩ := hr
    have hi' : i.toNat < n.toNat := UInt64.lt_iff_toNat_lt.1 hi
    have hsum : (c.localTail + i).toNat = c.localTail.toNat + i.toNat := by
      rw [UInt64.toNat_add, Nat.mod_eq_of_lt]
      have := h.ring.head_lt
      omega
    have htail := hacks.tail_le.trans hack
    rw [CursorSystem.capacity, slotIndex_eq_mod h.ring.pow2, hsum] at hmod
    refine mod_ne_mod_of_lt ?_ ?_ hmod
    · omega
    · rw [CursorSystem.capacity] at hroom
      omega
  admitted := by
    intro c phase maxRecords hreader
    obtain ⟨n, hn, -⟩ := h.available hreader maxRecords
    exact ⟨n, hn⟩

end CursorSystem

/-- From any ring that represents its accepted records, with a cursor made
at either end, delivery is exactly once and in order in every state that
the bridge and the cursor reach with fewer than 2^64 accepted records. -/
theorem exactly_once_in_order {b : Bridge} {log : List Record}
    {generations : List UInt64} (h : Represents b.ring log)
    (hlength : generations.length = log.length)
    {labels : List CursorLabel} {s : CursorSystem}
    (hrun : cursorMachine.run (CursorSystem.initial b log generations) labels =
      some s)
    (hlt : s.accepted.length < 2 ^ 64) : s.Delivered :=
  CursorSystem.delivered_of_inv
    (cursorInv_run (cursorInv_initial h hlength) hrun hlt)

/-- Two publications into a ring of one slot, around the first half of a
drain: the second is dropped, since the first is not acknowledged. -/
def overtakenDrain : List CursorLabel :=
  [.initHead, .publishLoad (blankRecord 1 HFIOR_RECORD_MOTION), .publishWrite,
    .initTail 5 1 true, .publishStore, .drain 8,
    .publishLoad (blankRecord 2 HFIOR_RECORD_MOTION), .copy, .publishWrite,
    .advance, .ack .done, .deliver 0 .done]

theorem exactly_once_overtaken :
    ∃ s, cursorMachine.run (.initial (freshBridge 1) [] []) overtakenDrain =
      some s ∧ s.Delivered := by
  have hrun : cursorMachine.run (.initial (freshBridge 1) [] []) overtakenDrain =
      some _ := rfl
  have hring : Represents (freshBridge 1).ring [] :=
    represents_freshHeader (by decide) _ _ _ _
  exact ⟨_, hrun, exactly_once_in_order hring rfl hrun (by decide)⟩

end Hfior
