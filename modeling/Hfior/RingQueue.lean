import Hfior.Ring
import Hfior.Library.BoundedQueue
import Hfior.Library.Calls

/-!
# The ring as a bounded queue

`hfior_ring_publish` and `hfior_ring_drain` on one ring are a bounded FIFO
queue.  `RepresentsQueue r q` says that the header `r` is an image of the
queue `q`: the depth is the length, and the entries are in the slots behind
the tail.  The positions count modulo 2^64 and may start anywhere, which
costs nothing since the capacity divides 2^64.

Each call keeps the image (`publish`, `drain`), so
`ring_is_bounded_queue` holds for every sequence of calls.
-/

namespace Hfior

/-! ## Calls -/

/-- A call of the producer or of the consumer. -/
inductive RingCall where
  | publish (record : Record)
  | drain (maxRecords nowNs : UInt64)

/-- What a call returns. -/
inductive RingReply where
  | published (accepted : Bool)
  | drained (records : List Record)
deriving DecidableEq, Repr

/-- A call on the ring. -/
def ringCall (r : RingHeader) : RingCall → RingReply × RingHeader
  | .publish record => (.published (ringPublish r record).1, (ringPublish r record).2)
  | .drain maxRecords nowNs =>
    (.drained (ringDrain r maxRecords nowNs).1, (ringDrain r maxRecords nowNs).2)

/-- The same call on the queue. -/
def queueCall (q : BoundedQueue Record) : RingCall → RingReply × BoundedQueue Record
  | .publish record => (.published (q.push record).1, (q.push record).2)
  | .drain maxRecords _ =>
    (.drained (q.pop maxRecords.toNat).1, (q.pop maxRecords.toNat).2)

/-! ## The image of a queue -/

/-- The header is an image of the queue. -/
structure RepresentsQueue (r : RingHeader) (q : BoundedQueue Record) : Prop where
  pow2 : isPowerOfTwoU32 r.metadata.capacity = true
  capacity : r.metadata.capacity.toNat = q.capacity
  depth : (ringDepth r).toNat = q.entries.length
  slots : InSlots r.metadata.capacity.toNat r.records r.consumer.tail.toNat q.entries

/-- A slot some positions further on. -/
theorem slotIndex_add {capacity : UInt32} (h : isPowerOfTwoU32 capacity = true)
    (position : UInt64) (i : Nat) :
    slotIndex capacity (position + UInt64.ofNat i) =
      (position.toNat + i) % capacity.toNat := by
  rw [slotIndex_eq_mod h, UInt64.toNat_add, UInt64.toNat_ofNat',
    Nat.mod_mod_of_dvd _ (dvd_of_isPowerOfTwoU32 h), Nat.add_mod,
    Nat.mod_mod_of_dvd _ (dvd_of_isPowerOfTwoU32 h), ← Nat.add_mod]

/-- A ring whose head is its tail is an empty queue. -/
theorem representsQueue_empty {r : RingHeader}
    (hpow : isPowerOfTwoU32 r.metadata.capacity = true)
    (hempty : r.producer.head = r.consumer.tail) :
    RepresentsQueue r (BoundedQueue.empty r.metadata.capacity.toNat) where
  pow2 := hpow
  capacity := rfl
  depth := by simp [ringDepth, hempty, BoundedQueue.empty]
  slots := InSlots.nil

namespace RepresentsQueue

variable {r : RingHeader} {q : BoundedQueue Record} {record : Record}

/-- The head is as far behind the tail as the queue is long. -/
theorem head_eq (h : RepresentsQueue r q) :
    r.producer.head = r.consumer.tail + UInt64.ofNat q.entries.length := by
  rw [← h.depth, UInt64.ofNat_toNat, ringDepth, UInt64.add_comm, UInt64.sub_add_cancel]

/-- The ring is full exactly if the queue is. -/
theorem ringFull_iff (h : RepresentsQueue r q) :
    ringFull r.metadata.capacity r.producer.head r.consumer.tail = true ↔
      ¬ q.entries.length < q.capacity := by
  have hdepth := h.depth
  rw [ringDepth] at hdepth
  rw [ringFull, decide_eq_true_eq, UInt64.le_iff_toNat_le, UInt32.toNat_toUInt64, hdepth,
    h.capacity, Nat.not_lt]

/-- A publish is a push. -/
theorem publish (h : RepresentsQueue r q) (record : Record) :
    (ringPublish r record).1 = (q.push record).1 ∧
      RepresentsQueue (ringPublish r record).2 (q.push record).2 := by
  unfold ringPublish BoundedQueue.push
  dsimp only
  by_cases hroom : q.entries.length < q.capacity
  · have hnotFull : ¬ ringFull r.metadata.capacity r.producer.head r.consumer.tail = true := by
      rw [h.ringFull_iff]
      exact fun hfull => hfull hroom
    rw [if_neg hnotFull, dif_pos hroom]
    refine ⟨rfl, h.pow2, h.capacity, ?_, ?_⟩
    · have hcapacity := r.metadata.capacity.toNat_lt
      have hdepth : ringDepth (storeHead (writeSlot r r.producer.head record)
          r.producer.head record) = ringDepth r + 1 := by
        simp only [ringDepth, storeHead, writeSlot]
        rw [UInt64.sub_eq_add_neg, UInt64.sub_eq_add_neg, UInt64.add_assoc, UInt64.add_assoc,
          UInt64.add_comm 1]
      rw [hdepth, UInt64.toNat_add, UInt64.toNat_one, h.depth, List.length_append,
        List.length_singleton, Nat.mod_eq_of_lt]
      rw [← h.capacity] at hroom
      omega
    · have hslot := h.slots.push (x := record) (h.capacity ▸ hroom)
      have hhead : slotIndex r.metadata.capacity r.producer.head =
          (r.consumer.tail.toNat + q.entries.length) % r.metadata.capacity.toNat := by
        rw [h.head_eq, slotIndex_add h.pow2]
      simp only [storeHead, writeSlot, hhead]
      exact hslot
  · rw [if_pos (h.ringFull_iff.2 hroom), dif_neg hroom]
    exact ⟨rfl, h.pow2, h.capacity, h.depth, h.slots⟩

/-- The slots that a drain copies hold the first entries. -/
theorem copySlots_eq (h : RepresentsQueue r q) {available : UInt64}
    (hle : available.toNat ≤ q.entries.length) :
    copySlots r r.consumer.tail available = q.entries.take available.toNat := by
  rw [← h.slots.read hle]
  apply List.map_congr_left
  intro i _
  rw [copySlot, slotIndex_add h.pow2]

/-- Storing the next tail drops the entries below it. -/
theorem storeTail (h : RepresentsQueue r q) {available : UInt64}
    (hle : available.toNat ≤ q.entries.length) (nowNs : UInt64) :
    RepresentsQueue (storeTail r available nowNs) (q.pop available.toNat).2 where
  pow2 := h.pow2
  capacity := h.capacity
  depth := by
    have hdepth : ringDepth (Hfior.storeTail r available nowNs) = ringDepth r - available := by
      simp only [ringDepth, Hfior.storeTail]
      rw [UInt64.sub_eq_add_neg, UInt64.neg_add, UInt64.sub_eq_add_neg, UInt64.sub_eq_add_neg,
        UInt64.sub_eq_add_neg, UInt64.add_assoc]
    have hle' : available ≤ ringDepth r := by
      rw [UInt64.le_iff_toNat_le, h.depth]
      exact hle
    rw [hdepth, UInt64.toNat_sub_of_le _ _ hle', h.depth, BoundedQueue.pop, List.length_drop]
  slots := by
    refine h.slots.drop.congr ?_
    simp only [Hfior.storeTail]
    rw [UInt64.toNat_add, Nat.mod_mod_of_dvd _ (dvd_of_isPowerOfTwoU32 h.pow2)]

/-- A drain is a pop. -/
theorem drain (h : RepresentsQueue r q) (maxRecords nowNs : UInt64) :
    (ringDrain r maxRecords nowNs).1 = (q.pop maxRecords.toNat).1 ∧
      RepresentsQueue (ringDrain r maxRecords nowNs).2 (q.pop maxRecords.toNat).2 := by
  have hdepth := h.depth
  rw [ringDepth] at hdepth
  unfold ringDrain
  dsimp only
  generalize havailable : (if r.producer.head - r.consumer.tail > maxRecords then maxRecords
    else r.producer.head - r.consumer.tail) = available
  have hmin : available.toNat = min maxRecords.toNat q.entries.length := by
    rw [← havailable, ← hdepth]
    split
    · rename_i hgt
      rw [gt_iff_lt, UInt64.lt_iff_toNat_lt] at hgt
      omega
    · rename_i hle
      rw [gt_iff_lt, UInt64.lt_iff_toNat_lt] at hle
      omega
  have hle : available.toNat ≤ q.entries.length := by omega
  have hpop : q.pop maxRecords.toNat = q.pop available.toNat := by
    have htake : q.entries.take maxRecords.toNat = q.entries.take available.toNat := by
      rw [hmin, List.take_eq_take_min]
    have hdrop : q.entries.drop maxRecords.toNat = q.entries.drop available.toNat := by
      rw [hmin, List.drop_eq_drop_min]
    simp only [BoundedQueue.pop, htake, hdrop]
  rw [hpop, h.copySlots_eq hle]
  refine ⟨rfl, ?_⟩
  split
  · exact h.storeTail hle nowNs
  · rename_i hzero
    have hnone : available.toNat = 0 := by
      have : available = 0 := by simpa using hzero
      rw [this]
      rfl
    simp only [hnone, BoundedQueue.pop, List.drop_zero]
    exact h

end RepresentsQueue

/-- The calls keep the image and agree on their replies. -/
theorem representsQueue_call {r : RingHeader} {q : BoundedQueue Record}
    (call : RingCall) (h : RepresentsQueue r q) :
    (ringCall r call).1 = (queueCall q call).1 ∧
      RepresentsQueue (ringCall r call).2 (queueCall q call).2 := by
  cases call with
  | publish record =>
    obtain ⟨haccepted, hnext⟩ := h.publish record
    exact ⟨congrArg RingReply.published haccepted, hnext⟩
  | drain maxRecords nowNs =>
    obtain ⟨hrecords, hnext⟩ := h.drain maxRecords nowNs
    exact ⟨congrArg RingReply.drained hrecords, hnext⟩

/-- A call does not change the capacity of the queue. -/
theorem queueCall_capacity (q : BoundedQueue Record) (call : RingCall) :
    (queueCall q call).2.capacity = q.capacity := by
  cases call with
  | publish record =>
    simp only [queueCall, BoundedQueue.push]
    split <;> rfl
  | drain maxRecords nowNs => rfl

/-- From any head that is the tail, every sequence of publish and drain calls
returns what the bounded queue returns, with the depth as the length of the
queue, and a publish that is refused changes the drop counter only. -/
theorem ring_is_bounded_queue {r : RingHeader}
    (hpow : isPowerOfTwoU32 r.metadata.capacity = true)
    (hempty : r.producer.head = r.consumer.tail) (calls : List RingCall) :
    let ring := runCalls ringCall r calls
    let queue := runCalls queueCall (BoundedQueue.empty r.metadata.capacity.toNat) calls
    ring.1 = queue.1 ∧ (ringDepth ring.2).toNat = queue.2.entries.length ∧
      ∀ record, ((ringPublish ring.2 record).1 = true ↔
          queue.2.entries.length < r.metadata.capacity.toNat) ∧
        ((ringPublish ring.2 record).1 = false →
          (ringPublish ring.2 record).2 = { ring.2 with
            producer.droppedNewest := ring.2.producer.droppedNewest + 1 }) := by
  have hcall : ∀ s q call, (RepresentsQueue s q ∧ q.capacity = r.metadata.capacity.toNat) →
      (ringCall s call).1 = (queueCall q call).1 ∧
      RepresentsQueue (ringCall s call).2 (queueCall q call).2 ∧
        (queueCall q call).2.capacity = r.metadata.capacity.toNat := by
    rintro s q call ⟨h, hcapacity⟩
    obtain ⟨hreply, hnext⟩ := representsQueue_call call h
    exact ⟨hreply, hnext, (queueCall_capacity q call).trans hcapacity⟩
  intro ring queue
  obtain ⟨hreplies, hlast, hcapacity⟩ :=
    runCalls_simulates _ hcall ⟨representsQueue_empty hpow hempty, rfl⟩ calls
  refine ⟨hreplies, hlast.depth, ?_⟩
  intro record
  obtain ⟨haccepted, -⟩ := hlast.publish record
  constructor
  · rw [haccepted, BoundedQueue.push_accepted, hcapacity]
  · intro hrefused
    unfold ringPublish at hrefused ⊢
    dsimp only at hrefused ⊢
    split at hrefused
    · rename_i hfull
      rw [if_pos hfull]
      rfl
    · cases hrefused

/-- A ring of eight slots whose positions are about to wrap around. -/
def wrappingRing : RingHeader :=
  { freshHeader 8 0 ⟨[], 0, 0, 0, 0⟩ 1 0 with
    producer.head := 0xfffffffffffffffd
    consumer.tail := 0xfffffffffffffffd }

/-- Four publications, a partial drain and a drain of the rest. -/
def wrappingCalls : List RingCall :=
  (List.range 4).map (fun i => .publish (blankRecord (UInt64.ofNat i) 0)) ++
    [.drain 3 0, .drain 16 0]

theorem ring_is_bounded_queue_wrapping :
    let ring := runCalls ringCall wrappingRing wrappingCalls
    let queue := runCalls queueCall (BoundedQueue.empty 8) wrappingCalls
    ring.1 = queue.1 ∧ (ringDepth ring.2).toNat = queue.2.entries.length ∧
      ∀ record, ((ringPublish ring.2 record).1 = true ↔ queue.2.entries.length < 8) ∧
        ((ringPublish ring.2 record).1 = false →
          (ringPublish ring.2 record).2 = { ring.2 with
            producer.droppedNewest := ring.2.producer.droppedNewest + 1 }) :=
  ring_is_bounded_queue (r := wrappingRing) (by decide) rfl wrappingCalls

end Hfior
