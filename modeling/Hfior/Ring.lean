import Hfior.Abi
import Hfior.Library.BoundedLog
import Mathlib.Data.Nat.Bitwise

/-!
# The ring of `src/common.c`

`ringPublish` and `ringReadSnapshot` are translated from the source.  Their
parts (`ringFull`, `dropNewest`, `writeSlot`, `storeHead` and
`snapshotAvailable`, `copySlots`) are the steps that another process can
see between two memory accesses, so the interleaved models use the same
parts.

`Represents r log` says that the header `r` is a correct image of a bounded
log whose accepted records are `log`.  `Represents.window` is that bounded
log.  The results are one lemma for each operation:

* `represents_initializeMapping`: a fresh mapping is the empty log;
* `represents_ringPublish`: a publish is an append, or it drops the newest
  record when the window is full;
* `snapshotAvailable_eq` and `copySlots_eq`: a reader inside the window is
  never rejected, and it copies a slice of the accepted records.
-/

namespace Hfior

/-! ## The outcome of a system call -/

/-- The error numbers that the code tells apart.  `EWOULDBLOCK` is `EAGAIN`
on Linux. -/
inductive Errno where
  | EINTR | EAGAIN | EINVAL | EOVERFLOW | ENOBUFS | EPIPE | ECONNRESET
  | other (code : Nat)
deriving DecidableEq, Repr

/-- What a `send` or a `write` did: everything was taken, or `errno`. -/
inductive IoResult where
  | done
  | failed (errno : Errno)
deriving DecidableEq, Repr

/-! ## Capacity and slots -/

/-- `hfior_is_power_of_two_u32`. -/
def isPowerOfTwoU32 (value : UInt32) : Bool :=
  value != 0 && (value &&& (value - 1)) == 0

theorem exists_pow_of_isPowerOfTwoU32 {value : UInt32}
    (h : isPowerOfTwoU32 value = true) : ∃ k, k < 32 ∧ value.toNat = 2 ^ k := by
  rw [isPowerOfTwoU32, Bool.and_eq_true, bne_iff_ne, beq_iff_eq] at h
  obtain ⟨hne, hand⟩ := h
  have hne' : value.toNat ≠ 0 := fun h0 => hne (UInt32.toNat_inj.1 h0)
  have hle : (1 : UInt32) ≤ value := by
    rw [UInt32.le_iff_toNat_le]
    exact Nat.one_le_iff_ne_zero.2 hne'
  have hand' : value.toNat &&& (value.toNat - 1) = 0 := by
    have := congrArg UInt32.toNat hand
    rwa [UInt32.toNat_and, UInt32.toNat_sub_of_le _ _ hle] at this
  obtain ⟨k, hk⟩ := (Nat.and_sub_one_eq_zero_iff_isPowerOfTwo hne').1 hand'
  refine ⟨k, ?_, hk⟩
  have hlt : 2 ^ k < 2 ^ 32 := hk ▸ value.toNat_lt
  exact (Nat.pow_lt_pow_iff_right (by decide)).1 hlt

/-- `position & (uint64_t)(capacity - 1u)`, the slot of a position. -/
def slotIndex (capacity : UInt32) (position : UInt64) : Nat :=
  (position &&& (capacity - 1).toUInt64).toNat

/-- The capacity divides 2^64, so slots go on over the end of the positions. -/
theorem dvd_of_isPowerOfTwoU32 {capacity : UInt32}
    (h : isPowerOfTwoU32 capacity = true) : capacity.toNat ∣ 2 ^ 64 := by
  obtain ⟨k, hk, hcapacity⟩ := exists_pow_of_isPowerOfTwoU32 h
  rw [hcapacity]
  exact Nat.pow_dvd_pow 2 (by omega)

theorem slotIndex_eq_mod {capacity : UInt32}
    (h : isPowerOfTwoU32 capacity = true) (position : UInt64) :
    slotIndex capacity position = position.toNat % capacity.toNat := by
  obtain ⟨k, -, hk⟩ := exists_pow_of_isPowerOfTwoU32 h
  have hle : (1 : UInt32) ≤ capacity := by
    rw [UInt32.le_iff_toNat_le, hk]
    exact Nat.one_le_two_pow
  rw [slotIndex, UInt64.toNat_and, UInt32.toNat_toUInt64,
    UInt32.toNat_sub_of_le _ _ hle, hk]
  exact Nat.and_two_pow_sub_one_eq_mod _ _

/-- `sizeof(header) + capacity * sizeof(record)`, in 64 bits. -/
def mappingSize (capacity : UInt32) : UInt64 :=
  UInt64.ofNat sizeofRingHeader +
    capacity.toUInt64 * UInt64.ofNat sizeofRecord

theorem mappingSize_toNat (capacity : UInt32) :
    (mappingSize capacity).toNat = sizeofRingHeader + capacity.toNat * sizeofRecord := by
  have hlt := capacity.toNat_lt
  have hproduct : (capacity.toUInt64 * UInt64.ofNat sizeofRecord).toNat =
      capacity.toNat * sizeofRecord := by
    rw [UInt64.toNat_mul, UInt32.toNat_toUInt64]
    apply Nat.mod_eq_of_lt
    show capacity.toNat * 32 < 2 ^ 64
    omega
  rw [mappingSize, UInt64.toNat_add, hproduct]
  apply Nat.mod_eq_of_lt
  show 384 + capacity.toNat * 32 < 2 ^ 64
  omega

/-- The mask keeps every position below the capacity, whatever it is. -/
theorem slotIndex_lt {capacity : UInt32} (h : capacity ≠ 0) (position : UInt64) :
    slotIndex capacity position < capacity.toNat := by
  have hpos : capacity.toNat ≠ 0 := fun h0 => h (UInt32.toNat_inj.1 h0)
  have hle : (1 : UInt32) ≤ capacity := by
    rw [UInt32.le_iff_toNat_le]
    exact Nat.one_le_iff_ne_zero.2 hpos
  rw [slotIndex, UInt64.toNat_and, UInt32.toNat_toUInt64, UInt32.toNat_sub_of_le _ _ hle]
  have hand : position.toNat &&& (capacity.toNat - (1 : UInt32).toNat) ≤ _ := Nat.and_le_right
  have hone : (1 : UInt32).toNat = 1 := rfl
  omega

/-- The offset of a slot in the mapping: `hfior_records_const` adds the
header size that the header itself gives. -/
def slotOffset (headerSize : UInt32) (slot : Nat) : Nat :=
  headerSize.toNat + slot * sizeofRecord

/-- Behind a header of at most its real size every slot is mapped. -/
theorem slotOffset_inside {headerSize capacity : UInt32} {slot : Nat}
    (hheader : headerSize.toNat ≤ sizeofRingHeader) (hslot : slot < capacity.toNat) :
    slotOffset headerSize slot + sizeofRecord ≤ (mappingSize capacity).toNat := by
  have hmul : (slot + 1) * sizeofRecord ≤ capacity.toNat * sizeofRecord :=
    Nat.mul_le_mul_right _ hslot
  rw [mappingSize_toNat, slotOffset]
  rw [Nat.succ_mul] at hmul
  omega

/-! ## `hfior_initialize_mapping` -/

/-- The identity that `EVIOCGID` and `EVIOCGNAME` return. -/
structure DeviceIdentity where
  name : List UInt8
  bustype : UInt16
  vendor : UInt16
  product : UInt16
  version : UInt16
deriving DecidableEq, Repr, Inhabited

/-- The header that `hfior_initialize_mapping` writes. -/
def freshHeader (capacity : UInt32) (features : UInt64)
    (device : DeviceIdentity) (generation nowNs : UInt64) : RingHeader where
  metadata := {
    magic := HFIOR_MAGIC
    abiVersion := HFIOR_ABI_VERSION
    headerSize := UInt32.ofNat sizeofRingHeader
    recordSize := UInt32.ofNat sizeofRecord
    capacity := capacity
    features := features
    sourceClockId := 1
    inputBustype := device.bustype
    inputVendor := device.vendor
    inputProduct := device.product
    inputVersion := device.version
    deviceName := device.name.take (HFIOR_MAX_DEVICE_NAME - 1) }
  producer := {
    head := 0
    nextSequence := 1
    droppedNewest := 0
    eagerSendDrops := 0
    generation := generation
    heartbeatNs := nowNs
    urgentWrites := 0 }
  consumer := {
    tail := 0
    deadlineNs := 0
    heartbeatNs := 0
    drains := 0
    recordsConsumed := 0
    generationSeen := generation }
  stats := ⟨0, 0, 0, 0, 0, 0, 0⟩
  records := fun _ => ⟨0, 0, 0, 0, 0, 0, 0, 0⟩

/-- `hfior_initialize_mapping` on a mapping of `size` bytes. -/
def initializeMapping (size : UInt64) (capacity : UInt32) (features : UInt64)
    (device : DeviceIdentity) (generation nowNs : UInt64) :
    Except Errno RingHeader :=
  if !isPowerOfTwoU32 capacity || size < mappingSize capacity then
    .error .EINVAL
  else .ok (freshHeader capacity features device generation nowNs)

/-! ## `hfior_ring_publish` -/

/-- The full test of a publish, on the loaded positions. -/
def ringFull (capacity : UInt32) (head tail : UInt64) : Bool :=
  capacity.toUInt64 ≤ head - tail

/-- The drop branch: one more `dropped_newest`. -/
def dropNewest (r : RingHeader) : RingHeader :=
  { r with producer.droppedNewest := r.producer.droppedNewest + 1 }

/-- `records[head & mask] = *record`. -/
def writeSlot (r : RingHeader) (head : UInt64) (record : Record) : RingHeader :=
  { r with records :=
      Function.update r.records (slotIndex r.metadata.capacity head) record }

/-- The release store of `head + 1`, and the counters behind it. -/
def storeHead (r : RingHeader) (head : UInt64) (record : Record) : RingHeader :=
  { r with
    producer.head := head + 1
    stats := { r.stats with
      recordsPublished := r.stats.recordsPublished + 1
      motionFrames := r.stats.motionFrames +
        if record.has HFIOR_RECORD_MOTION then 1 else 0
      buttonFrames := r.stats.buttonFrames +
        if record.has HFIOR_RECORD_BUTTON then 1 else 0
      wheelFrames := r.stats.wheelFrames +
        if record.has HFIOR_RECORD_WHEEL then 1 else 0
      synDroppedFrames := r.stats.synDroppedFrames +
        if record.has HFIOR_RECORD_SYN_DROPPED then 1 else 0 } }

/-- `hfior_ring_publish`: the record is accepted, or it is dropped because
the window is full. -/
def ringPublish (r : RingHeader) (record : Record) : Bool × RingHeader :=
  let head := r.producer.head
  let tail := r.consumer.tail
  if ringFull r.metadata.capacity head tail then (false, dropNewest r)
  else (true, storeHead (writeSlot r head record) head record)

/-! ## `hfior_ring_drain` and `hfior_ring_read_snapshot` -/

/-- The bound checks of a snapshot against the loaded head, and the number
of records that it may copy. -/
def snapshotAvailable (capacity : UInt32) (head localTail maxRecords : UInt64) :
    Except Errno UInt64 :=
  if localTail > head || head - localTail > capacity.toUInt64 then
    .error .EOVERFLOW
  else if head - localTail > maxRecords then .ok maxRecords
  else .ok (head - localTail)

/-- The copy of slot `(position + i) & mask`. -/
def copySlot (r : RingHeader) (position i : UInt64) : Record :=
  r.records (slotIndex r.metadata.capacity (position + i))

/-- The copy loop of a snapshot. -/
def copySlots (r : RingHeader) (position available : UInt64) : List Record :=
  (List.range available.toNat).map fun i => copySlot r position (UInt64.ofNat i)

/-- The stores and counters of a drain that took something. -/
def storeTail (r : RingHeader) (available nowNs : UInt64) : RingHeader :=
  { r with consumer := { r.consumer with
      tail := r.consumer.tail + available
      drains := r.consumer.drains + 1
      recordsConsumed := r.consumer.recordsConsumed + available
      heartbeatNs := nowNs } }

/-- `hfior_ring_drain`: the copied records and the ring, whose tail it moves
by itself. -/
def ringDrain (r : RingHeader) (maxRecords nowNs : UInt64) :
    List Record × RingHeader :=
  let tail := r.consumer.tail
  let head := r.producer.head
  let available := if head - tail > maxRecords then maxRecords else head - tail
  (copySlots r tail available,
    if available != 0 then storeTail r available nowNs else r)

/-- `hfior_ring_depth`. -/
def ringDepth (r : RingHeader) : UInt64 := r.producer.head - r.consumer.tail

/-- `hfior_ring_read_snapshot`: the copied records and the new local tail.
A missing pointer is `none`, and `out` says whether `out` is not `NULL`. -/
def ringReadSnapshot (header : Option RingHeader) (localTail : Option UInt64)
    (out : Bool) (maxRecords : UInt64) : Except Errno (List Record × UInt64) :=
  match header, localTail with
  | some r, some tail =>
    if !out && maxRecords != 0 then .error .EINVAL
    else do
      let available ← snapshotAvailable r.metadata.capacity r.producer.head
        tail maxRecords
      .ok (copySlots r tail available, tail + available)
  | _, _ => .error .EINVAL

/-! ## The part of the header that carries the log -/

/-- Two headers agree on the geometry, the two positions and the slots.
The counters, the heartbeats and the generation are left open. -/
structure SameWindow (r r' : RingHeader) : Prop where
  metadata : r'.metadata = r.metadata
  head : r'.producer.head = r.producer.head
  tail : r'.consumer.tail = r.consumer.tail
  records : r'.records = r.records

theorem SameWindow.refl (r : RingHeader) : SameWindow r r :=
  ⟨rfl, rfl, rfl, rfl⟩

theorem SameWindow.trans {r r' r'' : RingHeader} (h : SameWindow r r')
    (h' : SameWindow r' r'') : SameWindow r r'' :=
  ⟨h'.1.trans h.1, h'.2.trans h.2, h'.3.trans h.3, h'.4.trans h.4⟩

theorem sameWindow_dropNewest (r : RingHeader) : SameWindow r (dropNewest r) :=
  ⟨rfl, rfl, rfl, rfl⟩

/-- Two headers agree on the counters of the publication attempts. -/
structure SameLedger (r r' : RingHeader) : Prop where
  nextSequence : r'.producer.nextSequence = r.producer.nextSequence
  droppedNewest : r'.producer.droppedNewest = r.producer.droppedNewest

theorem SameLedger.refl (r : RingHeader) : SameLedger r r := ⟨rfl, rfl⟩

theorem SameLedger.trans {r r' r'' : RingHeader} (h : SameLedger r r')
    (h' : SameLedger r' r'') : SameLedger r r'' :=
  ⟨h'.1.trans h.1, h'.2.trans h.2⟩

section
variable (r : RingHeader) (record : Record)

/-- A publish leaves the geometry and the consumer line alone. -/
@[simp] theorem ringPublish_metadata :
    (ringPublish r record).2.metadata = r.metadata := by
  simp only [ringPublish]
  split <;> rfl

@[simp] theorem ringPublish_consumer :
    (ringPublish r record).2.consumer = r.consumer := by
  simp only [ringPublish]
  split <;> rfl

@[simp] theorem ringPublish_nextSequence :
    (ringPublish r record).2.producer.nextSequence =
      r.producer.nextSequence := by
  simp only [ringPublish]
  split <;> rfl

/-- A publish counts its record as dropped when it returns false. -/
theorem ringPublish_droppedNewest :
    (ringPublish r record).2.producer.droppedNewest =
      if (ringPublish r record).1 then r.producer.droppedNewest
      else r.producer.droppedNewest + 1 := by
  simp only [ringPublish]
  split <;> rfl

end

/-- The header is a correct image of the accepted records `log`. -/
structure Represents (r : RingHeader) (log : List Record) : Prop where
  pow2 : isPowerOfTwoU32 r.metadata.capacity = true
  head : r.producer.head.toNat = log.length
  tail_le : r.consumer.tail.toNat ≤ log.length
  le_tail : log.length ≤ r.consumer.tail.toNat + r.metadata.capacity.toNat
  stores : Stores r.metadata.capacity.toNat r.records log
    r.consumer.tail.toNat

namespace Represents

variable {r r' : RingHeader} {log : List Record} {record : Record}

/-- The bounded log that the header stands for. -/
def window (h : Represents r log) : BoundedLog Record where
  capacity := r.metadata.capacity.toNat
  log := log
  tail := r.consumer.tail.toNat
  tail_le_head := h.tail_le
  head_le := h.le_tail

theorem sameWindow (h : Represents r log) (hr : SameWindow r r') :
    Represents r' log := by
  obtain ⟨hm, hh, ht, hs⟩ := hr
  exact ⟨hm ▸ h.pow2, hh ▸ h.head, ht ▸ h.tail_le, by rw [hm, ht]; exact h.le_tail,
    by rw [hm, ht, hs]; exact h.stores⟩

theorem tail_le_head (h : Represents r log) :
    r.consumer.tail ≤ r.producer.head := by
  rw [UInt64.le_iff_toNat_le, h.head]
  exact h.tail_le

theorem head_lt (h : Represents r log) : log.length < 2 ^ 64 :=
  h.head ▸ r.producer.head.toNat_lt

theorem slotIndex_head (h : Represents r log) :
    slotIndex r.metadata.capacity r.producer.head =
      log.length % r.metadata.capacity.toNat := by
  rw [slotIndex_eq_mod h.pow2, h.head]

/-- A header that differs in a later tail only is an image of the same
records. -/
theorem release (h : Represents r log) (hmeta : r'.metadata = r.metadata)
    (hhead : r'.producer.head = r.producer.head)
    (hrecords : r'.records = r.records)
    (hlo : r.consumer.tail.toNat ≤ r'.consumer.tail.toNat)
    (hhi : r'.consumer.tail.toNat ≤ log.length) : Represents r' log where
  pow2 := hmeta ▸ h.pow2
  head := hhead ▸ h.head
  tail_le := hhi
  le_tail := by
    rw [hmeta]
    exact h.le_tail.trans (Nat.add_le_add_right hlo _)
  stores := by
    rw [hmeta, hrecords]
    exact h.stores.mono hlo

/-- Writing the slot of the next position keeps every accepted record, as
long as the window has room. -/
theorem writeSlot (h : Represents r log) (record : Record)
    (hroom : log.length < r.consumer.tail.toNat + r.metadata.capacity.toNat) :
    Represents (writeSlot r r.producer.head record) log where
  pow2 := h.pow2
  head := h.head
  tail_le := h.tail_le
  le_tail := h.le_tail
  stores := by
    rw [Hfior.writeSlot, h.slotIndex_head]
    exact h.stores.write hroom

theorem writeSlot_records (h : Represents r log) :
    (Hfior.writeSlot r r.producer.head record).records
      (log.length % r.metadata.capacity.toNat) = record := by
  rw [Hfior.writeSlot, h.slotIndex_head]
  exact Function.update_self _ _ _

/-- Storing the next head appends the record that its slot holds. -/
theorem storeHead (h : Represents r log)
    (hroom : log.length < r.consumer.tail.toNat + r.metadata.capacity.toNat)
    (hslot : r.records (log.length % r.metadata.capacity.toNat) = record)
    (hlt : log.length + 1 < 2 ^ 64) :
    Represents (storeHead r r.producer.head record) (log ++ [record]) where
  pow2 := h.pow2
  head := by
    rw [List.length_append, List.length_singleton, ← h.head]
    simp only [Hfior.storeHead, UInt64.toNat_add, UInt64.toNat_one]
    rw [Nat.mod_eq_of_lt (h.head ▸ hlt)]
  tail_le := by
    rw [List.length_append]
    exact h.tail_le.trans (Nat.le_add_right _ _)
  le_tail := by
    rw [List.length_append, List.length_singleton]
    exact hroom
  stores := h.stores.commit hslot

/-! ### The bounded log behind the header -/

theorem window_eq (h : Represents r log) (h' : Represents r' log)
    (hr : SameWindow r r') : h'.window = h.window := by
  simp only [window, hr.metadata, hr.tail]

/-- The image of one more record is one append later. -/
theorem run_append (h : Represents r log) (h' : Represents r' (log ++ [record]))
    (hmeta : r'.metadata = r.metadata)
    (htail : r'.consumer.tail = r.consumer.tail) :
    BoundedLog.machine.run h.window [.append record] = some h'.window := by
  have hroom : h.window.HasRoom := by
    have hle := h'.le_tail
    rw [hmeta, htail, List.length_append] at hle
    exact hle
  refine Machine.run_cons.2 ⟨h.window.append record hroom, dif_pos hroom, ?_⟩
  simp only [Machine.run_nil, window, BoundedLog.append, hmeta, htail]

/-- The image of the same records with a later tail is one release
later. -/
theorem run_release (h : Represents r log) (h' : Represents r' log)
    (hmeta : r'.metadata = r.metadata)
    (hle : r.consumer.tail.toNat ≤ r'.consumer.tail.toNat) :
    BoundedLog.machine.run h.window [.release r'.consumer.tail.toNat] =
      some h'.window := by
  have hbounds : h.window.tail ≤ r'.consumer.tail.toNat ∧
      r'.consumer.tail.toNat ≤ h.window.head := ⟨hle, h'.tail_le⟩
  refine Machine.run_cons.2
    ⟨h.window.release _ hbounds.1 hbounds.2, dif_pos hbounds, ?_⟩
  simp only [Machine.run_nil, window, BoundedLog.release, hmeta]

end Represents

/-! ## What each operation does to the log -/

theorem represents_freshHeader {capacity : UInt32}
    (hpow2 : isPowerOfTwoU32 capacity = true) (features : UInt64)
    (device : DeviceIdentity) (generation nowNs : UInt64) :
    Represents (freshHeader capacity features device generation nowNs) [] :=
  ⟨hpow2, rfl, Nat.le_refl _, Nat.zero_le _,
    fun p hp => absurd hp (Nat.not_lt_zero p)⟩

/-- A fresh mapping is the image of the empty log. -/
theorem represents_initializeMapping {size : UInt64} {capacity : UInt32}
    {features : UInt64} {device : DeviceIdentity} {generation nowNs : UInt64}
    {r : RingHeader}
    (h : initializeMapping size capacity features device generation nowNs
      = .ok r) :
    Represents r [] ∧ r.metadata.capacity = capacity ∧
      r.producer.generation = generation := by
  rw [initializeMapping] at h
  split at h
  · cases h
  · rename_i hvalid
    cases h
    rw [Bool.or_eq_true, not_or, Bool.not_eq_true', Bool.not_eq_false] at hvalid
    exact ⟨represents_freshHeader hvalid.1 _ _ _ _, rfl, rfl⟩

/-- Any header with a power-of-two capacity and a window of at most that
size is the image of some log. -/
theorem exists_represents {r : RingHeader}
    (hpow2 : isPowerOfTwoU32 r.metadata.capacity = true)
    (hle : r.consumer.tail ≤ r.producer.head)
    (hwithin : r.producer.head.toNat ≤
      r.consumer.tail.toNat + r.metadata.capacity.toNat) :
    ∃ log, Represents r log := by
  refine ⟨(List.range r.producer.head.toNat).map fun p =>
    r.records (p % r.metadata.capacity.toNat), hpow2, ?_, ?_, ?_, ?_⟩
  · rw [List.length_map, List.length_range]
  · rw [List.length_map, List.length_range]
    exact UInt64.le_iff_toNat_le.1 hle
  · rw [List.length_map, List.length_range]
    exact hwithin
  · intro p hp _
    rw [List.getElem_map, List.getElem_range]

/-- The full test, on a tail that is not above the head. -/
theorem ringFull_eq_false {capacity : UInt32} {head tail : UInt64}
    (h : tail ≤ head) :
    ringFull capacity head tail = false ↔
      head.toNat < tail.toNat + capacity.toNat := by
  have hle : tail.toNat ≤ head.toNat := UInt64.le_iff_toNat_le.1 h
  rw [ringFull, decide_eq_false_iff_not, UInt64.le_iff_toNat_le,
    UInt32.toNat_toUInt64, UInt64.toNat_sub_of_le _ _ h]
  omega

/-- A publish into a window with room returns true. -/
theorem ringPublish_of_room {r : RingHeader} {log : List Record}
    (record : Record) (h : Represents r log)
    (hroom : log.length < r.consumer.tail.toNat + r.metadata.capacity.toNat) :
    ringPublish r record =
      (true, storeHead (writeSlot r r.producer.head record) r.producer.head
        record) := by
  have hfull : ringFull r.metadata.capacity r.producer.head r.consumer.tail
      = false := (ringFull_eq_false h.tail_le_head).2 (h.head ▸ hroom)
  rw [ringPublish, hfull]
  rfl

/-- A publish into a window with room appends the record. -/
theorem represents_ringPublish_of_room {r : RingHeader} {log : List Record}
    (record : Record) (h : Represents r log)
    (hroom : log.length < r.consumer.tail.toNat + r.metadata.capacity.toNat)
    (hlt : log.length + 1 < 2 ^ 64) :
    Represents (ringPublish r record).2 (log ++ [record]) := by
  rw [ringPublish_of_room record h hroom]
  exact (h.writeSlot record hroom).storeHead hroom h.writeSlot_records hlt

/-- A publish into a full window drops the record, and returns false. -/
theorem ringPublish_of_full {r : RingHeader} {log : List Record}
    (record : Record) (h : Represents r log)
    (hfull : log.length = r.consumer.tail.toNat + r.metadata.capacity.toNat) :
    ringPublish r record = (false, dropNewest r) := by
  have hfull' : ringFull r.metadata.capacity r.producer.head r.consumer.tail
      = true := by
    rw [← Bool.not_eq_false, ringFull_eq_false h.tail_le_head, h.head]
    omega
  rw [ringPublish, hfull']
  rfl

/-- The bound checks fail on an impossible view of the producer. -/
theorem snapshotAvailable_rejected {capacity : UInt32} {head localTail : UInt64}
    (h : ¬ (localTail ≤ head ∧ head - localTail ≤ capacity.toUInt64)) (maxRecords : UInt64) :
    snapshotAvailable capacity head localTail maxRecords = .error .EOVERFLOW := by
  rw [snapshotAvailable, if_pos]
  rw [Bool.or_eq_true, decide_eq_true_eq, decide_eq_true_eq, gt_iff_lt, gt_iff_lt,
    ← UInt64.not_le, ← UInt64.not_le]
  exact Decidable.not_and_iff_or_not.1 h

/-- And they admit every other one, up to the limit. -/
theorem snapshotAvailable_admitted {capacity : UInt32} {head localTail : UInt64}
    (h : localTail ≤ head ∧ head - localTail ≤ capacity.toUInt64) (maxRecords : UInt64) :
    ∃ n, snapshotAvailable capacity head localTail maxRecords = .ok n ∧
      n.toNat = min maxRecords.toNat (head.toNat - localTail.toNat) := by
  have hdepth := UInt64.toNat_sub_of_le _ _ h.1
  have hnot : ¬ (decide (localTail > head) ||
      decide (head - localTail > capacity.toUInt64)) = true := by
    rw [Bool.or_eq_true, decide_eq_true_eq, decide_eq_true_eq, gt_iff_lt, gt_iff_lt,
      ← UInt64.not_le, ← UInt64.not_le]
    exact not_or_intro (not_not_intro h.1) (not_not_intro h.2)
  rw [snapshotAvailable, if_neg hnot]
  by_cases hmax : head - localTail > maxRecords
  · refine ⟨maxRecords, if_pos hmax, ?_⟩
    rw [gt_iff_lt, UInt64.lt_iff_toNat_lt, hdepth] at hmax
    omega
  · refine ⟨head - localTail, if_neg hmax, ?_⟩
    rw [gt_iff_lt, UInt64.lt_iff_toNat_lt, hdepth] at hmax
    omega

/-- A reader inside the window is never rejected, and may copy the unread
records up to its limit. -/
theorem snapshotAvailable_eq {r : RingHeader} {log : List Record}
    {tail : UInt64} (h : Represents r log)
    (hlo : r.consumer.tail.toNat ≤ tail.toNat) (hhi : tail.toNat ≤ log.length)
    (maxRecords : UInt64) :
    ∃ n, snapshotAvailable r.metadata.capacity r.producer.head tail maxRecords
        = .ok n ∧
      n.toNat = min maxRecords.toNat (log.length - tail.toNat) := by
  have hle : tail ≤ r.producer.head := by
    rw [UInt64.le_iff_toNat_le, h.head]
    exact hhi
  have hbound := h.le_tail
  rw [← h.head]
  apply snapshotAvailable_admitted
  refine ⟨hle, ?_⟩
  rw [UInt64.le_iff_toNat_le, UInt64.toNat_sub_of_le _ _ hle, h.head, UInt32.toNat_toUInt64]
  omega

/-- A slot of the window holds the accepted record of its position. -/
theorem copySlot_eq {r : RingHeader} {log : List Record} {tail i : UInt64}
    (h : Represents r log) (hlo : r.consumer.tail.toNat ≤ tail.toNat)
    (hi : tail.toNat + i.toNat < log.length) :
    copySlot r tail i = log[tail.toNat + i.toNat] := by
  have hsum : (tail + i).toNat = tail.toNat + i.toNat := by
    rw [UInt64.toNat_add, Nat.mod_eq_of_lt (hi.trans h.head_lt)]
  rw [copySlot, slotIndex_eq_mod h.pow2, hsum]
  exact h.stores _ hi (hlo.trans (Nat.le_add_right _ _))

/-- The copy loop returns the accepted records of its positions. -/
theorem copySlots_eq {r : RingHeader} {log : List Record}
    {tail available : UInt64} (h : Represents r log)
    (hlo : r.consumer.tail.toNat ≤ tail.toNat)
    (hhi : tail.toNat + available.toNat ≤ log.length) :
    copySlots r tail available =
      slice log tail.toNat (tail.toNat + available.toNat) := by
  rw [← h.stores.read hlo available.toNat hhi, copySlots]
  apply List.map_congr_left
  intro i hi
  rw [List.mem_range] at hi
  have hlt : i < 2 ^ 64 := hi.trans available.toNat_lt
  have hof : (UInt64.ofNat i).toNat = i := UInt64.toNat_ofNat_of_lt' hlt
  have hsum : (tail + UInt64.ofNat i).toNat = tail.toNat + i := by
    rw [UInt64.toNat_add, hof, Nat.mod_eq_of_lt]
    exact Nat.lt_of_lt_of_le (by omega) h.head_lt.le
  rw [copySlot, slotIndex_eq_mod h.pow2, hsum]

/-- A whole snapshot of a reader inside the window. -/
theorem ringReadSnapshot_eq {r : RingHeader} {log : List Record}
    {tail : UInt64} (h : Represents r log)
    (hlo : r.consumer.tail.toNat ≤ tail.toNat) (hhi : tail.toNat ≤ log.length)
    (maxRecords : UInt64) :
    ∃ n : UInt64, n.toNat = min maxRecords.toNat (log.length - tail.toNat) ∧
      (tail + n).toNat = tail.toNat + n.toNat ∧
      ringReadSnapshot (some r) (some tail) true maxRecords =
        .ok (slice log tail.toNat (tail.toNat + n.toNat), tail + n) := by
  obtain ⟨n, hn, hcount⟩ := snapshotAvailable_eq h hlo hhi maxRecords
  have hend : tail.toNat + n.toNat ≤ log.length := by omega
  refine ⟨n, hcount, ?_, ?_⟩
  · rw [UInt64.toNat_add, Nat.mod_eq_of_lt (Nat.lt_of_le_of_lt hend h.head_lt)]
  · rw [← copySlots_eq h hlo hend]
    simp only [ringReadSnapshot, hn]
    rfl

end Hfior
