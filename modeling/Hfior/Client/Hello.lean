import Hfior.Ring

/-!
# The handshake of the client, and its mapping

`receiveHello` is `receive_hello`.  It maps the ring for the capacity of the
hello message, and checks the magic, the ABI version, the record size and
the capacity of the mapped metadata.

`hfior_records_const` finds the records behind the header size that the
metadata gives, and `receive_hello` does not check that size.
`hello_reads_inside_iff` says for which admitted metadata every snapshot
stays in the mapping.
-/

namespace Hfior

def HFIOR_MSG_HELLO : UInt32 := 1

/-- `struct hfior_hello_message`. -/
structure HelloMessage where
  header : MessageHeader
  abiVersion : UInt32
  capacity : UInt32
  generation : UInt64
  features : UInt64
  producerPid : UInt32
deriving DecidableEq, Repr

def sizeofHelloMessage : Nat := 40

/-- The buffer read through a `struct hfior_hello_message` pointer. -/
def helloMessage (buffer : List UInt8) : HelloMessage where
  header := messageHeader buffer
  abiVersion := UInt32.ofNat (wordAt 8 4 buffer)
  capacity := UInt32.ofNat (wordAt 12 4 buffer)
  generation := UInt64.ofNat (wordAt 16 8 buffer)
  features := UInt64.ofNat (wordAt 24 8 buffer)
  producerPid := UInt32.ofNat (wordAt 32 4 buffer)

/-- The bytes that `accept_client_and_send_hello` sends. -/
def HelloMessage.bytes (hello : HelloMessage) : List UInt8 :=
  leBytes 4 hello.header.type.toNat ++ (leBytes 4 hello.header.size.toNat ++
    (leBytes 4 hello.abiVersion.toNat ++ (leBytes 4 hello.capacity.toNat ++
      (leBytes 8 hello.generation.toNat ++ (leBytes 8 hello.features.toNat ++
        (leBytes 4 hello.producerPid.toNat ++ leBytes 4 0))))))

/-- An encoded hello is read back unchanged. -/
theorem helloMessage_bytes (hello : HelloMessage) : helloMessage hello.bytes = hello := by
  have htype : wordAt 0 4 hello.bytes = hello.header.type.toNat :=
    wordAt_append_leBytes [] rfl hello.header.type.toNat_lt
  have hsize : wordAt 4 4 hello.bytes = hello.header.size.toNat :=
    wordAt_append_leBytes (leBytes 4 _) (leBytes_length _ _) hello.header.size.toNat_lt
  have hversion : wordAt 8 4 hello.bytes = hello.abiVersion.toNat := by
    rw [HelloMessage.bytes]
    iterate 1 rw [← List.append_assoc]
    exact wordAt_append_leBytes _ (by simp) hello.abiVersion.toNat_lt
  have hcapacity : wordAt 12 4 hello.bytes = hello.capacity.toNat := by
    rw [HelloMessage.bytes]
    iterate 2 rw [← List.append_assoc]
    exact wordAt_append_leBytes _ (by simp) hello.capacity.toNat_lt
  have hgeneration : wordAt 16 8 hello.bytes = hello.generation.toNat := by
    rw [HelloMessage.bytes]
    iterate 3 rw [← List.append_assoc]
    exact wordAt_append_leBytes _ (by simp) hello.generation.toNat_lt
  have hfeatures : wordAt 24 8 hello.bytes = hello.features.toNat := by
    rw [HelloMessage.bytes]
    iterate 4 rw [← List.append_assoc]
    exact wordAt_append_leBytes _ (by simp) hello.features.toNat_lt
  have hpid : wordAt 32 4 hello.bytes = hello.producerPid.toNat := by
    rw [HelloMessage.bytes]
    iterate 5 rw [← List.append_assoc]
    exact wordAt_append_leBytes _ (by simp) hello.producerPid.toNat_lt
  rw [helloMessage, messageHeader, htype, hsize, hversion, hcapacity, hgeneration, hfeatures,
    hpid]
  simp

/-- What `recvmsg` returns: the bytes, whether the control data was cut, and
the descriptors of the `SCM_RIGHTS` messages. -/
structure ControlledDatagram where
  bytes : List UInt8
  controlTruncated : Bool
  rights : List (List Int32)
deriving DecidableEq, Repr

/-- `hfior_recv_fds`: the received bytes and descriptors.  `received` is the
first result that is not `EINTR`. -/
def recvFds (received : Except Errno ControlledDatagram)
    (messageCapacity fdCapacity : Nat) : Except Errno (List UInt8 × List Int32) :=
  match received with
  | .error errno => .error errno
  | .ok datagram =>
    if datagram.bytes.isEmpty then .ok ([], [])
    else if datagram.controlTruncated then .error (.other 90)
    else .ok (datagram.bytes.take messageCapacity, datagram.rights.flatten.take fdCapacity)

/-- The fields of the client that `receive_hello` stores, and the metadata
at the start of the mapping. -/
structure HelloClient where
  memfd : Int32
  urgentFd : Int32
  generation : UInt64
  features : UInt64
  producerPid : UInt32
  mappingSize : UInt64
  metadata : RingMetadata
deriving DecidableEq, Repr

/-- The test of `receive_hello` on the message. -/
def helloValid (bytes : List UInt8) (fdCount : Nat) : Bool :=
  let hello := helloMessage bytes
  !(bytes.length != sizeofHelloMessage || hello.header.type != HFIOR_MSG_HELLO ||
    hello.header.size != UInt32.ofNat sizeofHelloMessage ||
    hello.abiVersion != HFIOR_ABI_VERSION || fdCount != 2)

/-- The test of `receive_hello` on the mapped metadata. -/
def helloMetadataValid (metadata : RingMetadata) (capacity : UInt32) : Bool :=
  !(metadata.magic != HFIOR_MAGIC || metadata.abiVersion != HFIOR_ABI_VERSION ||
    metadata.recordSize != UInt32.ofNat sizeofRecord || metadata.capacity != capacity)

/-- `receive_hello`.  `mapped` is the metadata of the ring, if the `mmap`
succeeds.  A call that ends in `die` returns nothing. -/
def receiveHello (received : Except Errno ControlledDatagram)
    (mapped : Option RingMetadata) : Option HelloClient :=
  match recvFds received sizeofHelloMessage 4, mapped with
  | .ok (bytes, fds), some metadata =>
    let hello := helloMessage bytes
    if !helloValid bytes fds.length then none
    else if !helloMetadataValid metadata hello.capacity then none
    else some {
      memfd := fds.getD 0 (-1)
      urgentFd := fds.getD 1 (-1)
      generation := hello.generation
      features := hello.features
      producerPid := hello.producerPid
      mappingSize := mappingSize hello.capacity
      metadata := metadata }
  | _, _ => none

/-- An admitted client has mapped the ring for the capacity of its
metadata. -/
theorem receiveHello_mapping {received : Except Errno ControlledDatagram}
    {mapped : Option RingMetadata} {client : HelloClient}
    (h : receiveHello received mapped = some client) :
    client.mappingSize = mappingSize client.metadata.capacity := by
  unfold receiveHello at h
  split at h
  · dsimp only at h
    split at h
    · cases h
    split at h
    · cases h
    rename_i hvalid
    obtain rfl := Option.some.inj h
    simp only [helloMetadataValid, Bool.not_not, Bool.or_eq_true, bne_iff_ne, not_or,
      Decidable.not_not] at hvalid
    rw [hvalid.2]
  · cases h

/-! ## What a snapshot reads -/

section
variable (r : RingHeader) (localTail : UInt64) (out : Bool) (maxRecords : UInt64)

/-- The slots that `hfior_ring_read_snapshot` copies, in order. -/
def snapshotSlots : List Nat :=
  match ringReadSnapshot (some r) (some localTail) out maxRecords with
  | .error _ => []
  | .ok (records, _) => (List.range records.length).map fun i =>
    slotIndex r.metadata.capacity (localTail + UInt64.ofNat i)

/-- The local tail behind the call. -/
def snapshotTail : UInt64 :=
  match ringReadSnapshot (some r) (some localTail) out maxRecords with
  | .error _ => localTail
  | .ok (_, tail) => tail

/-- The returned records are those of the slots. -/
theorem snapshotSlots_records {records : List Record} {tail : UInt64}
    (h : ringReadSnapshot (some r) (some localTail) out maxRecords = .ok (records, tail)) :
    records = (snapshotSlots r localTail out maxRecords).map r.records := by
  rw [snapshotSlots, h]
  simp only [ringReadSnapshot] at h
  split at h
  · cases h
  cases havailable : snapshotAvailable r.metadata.capacity r.producer.head localTail
      maxRecords with
  | error e =>
    rw [havailable] at h
    cases h
  | ok available =>
    rw [havailable] at h
    obtain ⟨rfl, -⟩ := Prod.mk.inj (Except.ok.inj h)
    simp [copySlots, copySlot]

theorem snapshotSlots_of_available {n : UInt64}
    (h : snapshotAvailable r.metadata.capacity r.producer.head localTail maxRecords = .ok n) :
    snapshotSlots r localTail true maxRecords = (List.range n.toNat).map fun i =>
      slotIndex r.metadata.capacity (localTail + UInt64.ofNat i) := by
  have hread : ringReadSnapshot (some r) (some localTail) true maxRecords =
      .ok (copySlots r localTail n, localTail + n) := by
    simp only [ringReadSnapshot, h]
    rfl
  rw [snapshotSlots, hread]
  simp [copySlots]

/-- The number of slots that a snapshot copies, and how it is bounded. -/
theorem snapshotSlots_length :
    (snapshotSlots r localTail out maxRecords).length ≤ maxRecords.toNat ∧
      (snapshotSlots r localTail out maxRecords).length ≤ r.metadata.capacity.toNat := by
  unfold snapshotSlots
  split
  · exact ⟨Nat.zero_le _, Nat.zero_le _⟩
  rename_i records tail hread
  rw [List.length_map, List.length_range]
  simp only [ringReadSnapshot] at hread
  split at hread
  · cases hread
  by_cases hchecks : localTail ≤ r.producer.head ∧
      r.producer.head - localTail ≤ r.metadata.capacity.toUInt64
  · obtain ⟨n, hn, hcount⟩ := snapshotAvailable_admitted hchecks maxRecords
    rw [hn] at hread
    obtain ⟨rfl, -⟩ := Prod.mk.inj (Except.ok.inj hread)
    have hdepth := UInt64.le_iff_toNat_le.1 hchecks.2
    rw [UInt64.toNat_sub_of_le _ _ hchecks.1, UInt32.toNat_toUInt64] at hdepth
    rw [copySlots, List.length_map, List.length_range]
    omega
  · rw [snapshotAvailable_rejected hchecks] at hread
    cases hread

theorem snapshotSlots_lt (h : r.metadata.capacity ≠ 0) {slot : Nat}
    (hslot : slot ∈ snapshotSlots r localTail out maxRecords) :
    slot < r.metadata.capacity.toNat := by
  unfold snapshotSlots at hslot
  split at hslot
  · cases hslot
  · obtain ⟨i, -, rfl⟩ := List.mem_map.1 hslot
    exact slotIndex_lt h _

/-- Every copied slot lies in the first `size` bytes, no limit is exceeded,
and a rejected call leaves the local tail. -/
structure SnapshotInside (size : UInt64) : Prop where
  inside : ∀ slot ∈ snapshotSlots r localTail out maxRecords,
    slotOffset r.metadata.headerSize slot + sizeofRecord ≤ size.toNat
  written : (snapshotSlots r localTail out maxRecords).length ≤ maxRecords.toNat
  copied : (snapshotSlots r localTail out maxRecords).length ≤ r.metadata.capacity.toNat
  rejected : ∀ e, ringReadSnapshot (some r) (some localTail) out maxRecords = .error e →
    snapshotTail r localTail out maxRecords = localTail

end

/-- A ring of the given metadata with the given head. -/
def ringAtHead (metadata : RingMetadata) (head : UInt64) : RingHeader where
  metadata := metadata
  producer := { head := head, nextSequence := 1, droppedNewest := 0, eagerSendDrops := 0,
                generation := 1, heartbeatNs := 0, urgentWrites := 0 }
  consumer := ⟨0, 0, 0, 0, 0, 1⟩
  stats := ⟨0, 0, 0, 0, 0, 0, 0⟩
  records := fun _ => blankRecord 0 0

/-- A snapshot can be made to copy the last slot of a ring. -/
theorem snapshotSlots_last {metadata : RingMetadata} (h : metadata.capacity ≠ 0) :
    snapshotSlots (ringAtHead metadata metadata.capacity.toUInt64)
      (metadata.capacity - 1).toUInt64 true 1 = [metadata.capacity.toNat - 1] := by
  have hpos : metadata.capacity.toNat ≠ 0 := fun h0 => h (UInt32.toNat_inj.1 h0)
  have hle : (1 : UInt32) ≤ metadata.capacity := by
    rw [UInt32.le_iff_toNat_le]
    exact Nat.one_le_iff_ne_zero.2 hpos
  have hlast : (metadata.capacity - 1).toUInt64.toNat = metadata.capacity.toNat - 1 := by
    rw [UInt32.toNat_toUInt64, UInt32.toNat_sub_of_le _ _ hle]
    rfl
  have hhead : metadata.capacity.toUInt64.toNat = metadata.capacity.toNat :=
    UInt32.toNat_toUInt64 _
  have hbelow : (metadata.capacity - 1).toUInt64 ≤ metadata.capacity.toUInt64 := by
    rw [UInt64.le_iff_toNat_le, hlast, hhead]
    omega
  have hdepth : (metadata.capacity.toUInt64 - (metadata.capacity - 1).toUInt64).toNat = 1 := by
    rw [UInt64.toNat_sub_of_le _ _ hbelow, hlast, hhead]
    omega
  have hchecks : (metadata.capacity - 1).toUInt64 ≤ metadata.capacity.toUInt64 ∧
      metadata.capacity.toUInt64 - (metadata.capacity - 1).toUInt64 ≤
        metadata.capacity.toUInt64 := by
    refine ⟨hbelow, ?_⟩
    rw [UInt64.le_iff_toNat_le, hdepth, hhead]
    omega
  obtain ⟨n, hn, hcount⟩ := snapshotAvailable_admitted hchecks 1
  have hone : n = 1 := by
    rw [← UInt64.toNat_inj, hcount, hlast, hhead]
    show min 1 _ = 1
    omega
  rw [hone] at hn
  rw [snapshotSlots_of_available (ringAtHead metadata metadata.capacity.toUInt64) _ _ hn]
  show [slotIndex metadata.capacity ((metadata.capacity - 1).toUInt64 + 0)] = _
  rw [UInt64.add_zero, slotIndex, UInt64.and_self, hlast]

/-- What `receive_hello` admits can be read without leaving the mapping
exactly when the ring has no slot or its header is not longer than
`struct hfior_ring_header`. -/
theorem hello_reads_inside_iff {received : Except Errno ControlledDatagram}
    {mapped : Option RingMetadata} {client : HelloClient}
    (h : receiveHello received mapped = some client) :
    (∀ (r : RingHeader) (localTail : UInt64) (out : Bool) (maxRecords : UInt64),
      r.metadata = client.metadata →
      SnapshotInside r localTail out maxRecords client.mappingSize) ↔
    client.metadata.capacity = 0 ∨
      client.metadata.headerSize ≤ UInt32.ofNat sizeofRingHeader := by
  rw [receiveHello_mapping h]
  constructor
  · intro hinside
    by_contra hnot
    rw [not_or, UInt32.not_le, UInt32.lt_iff_toNat_lt] at hnot
    obtain ⟨hcapacity, hheader⟩ := hnot
    have hheader : 384 < client.metadata.headerSize.toNat := hheader
    have hpos : client.metadata.capacity.toNat ≠ 0 :=
      fun h0 => hcapacity (UInt32.toNat_inj.1 h0)
    have hlast := (hinside (ringAtHead client.metadata client.metadata.capacity.toUInt64)
      (client.metadata.capacity - 1).toUInt64 true 1 rfl).inside
    rw [snapshotSlots_last hcapacity] at hlast
    have hslot := hlast _ (List.mem_singleton.2 rfl)
    rw [mappingSize_toNat, slotOffset] at hslot
    have hslot : client.metadata.headerSize.toNat + (client.metadata.capacity.toNat - 1) * 32 +
      32 ≤ 384 + client.metadata.capacity.toNat * 32 := hslot
    omega
  · rintro hgood r localTail out maxRecords hmetadata
    obtain ⟨hwritten, hcopied⟩ := snapshotSlots_length r localTail out maxRecords
    refine ⟨?_, hwritten, hcopied, ?_⟩
    · intro slot hslot
      have hpos : r.metadata.capacity ≠ 0 := by
        intro hzero
        rw [hzero] at hcopied
        rw [List.eq_nil_of_length_eq_zero (Nat.le_zero.1 hcopied)] at hslot
        cases hslot
      rw [← hmetadata] at hgood ⊢
      have hheader : r.metadata.headerSize.toNat ≤ sizeofRingHeader :=
        UInt32.le_iff_toNat_le.1 (hgood.resolve_left hpos)
      exact slotOffset_inside hheader (snapshotSlots_lt r localTail out maxRecords hpos hslot)
    · intro e he
      rw [snapshotTail, he]

/-- A hello for a ring of the given capacity, with two descriptors. -/
def helloDatagram (capacity : UInt32) : ControlledDatagram where
  bytes := HelloMessage.bytes
    ⟨⟨HFIOR_MSG_HELLO, UInt32.ofNat sizeofHelloMessage⟩, HFIOR_ABI_VERSION, capacity, 1, 0, 7⟩
  controlTruncated := false
  rights := [[3, 4]]

/-- The metadata of a fresh ring, with another header size. -/
def helloMetadata (capacity headerSize : UInt32) : RingMetadata :=
  { (freshHeader capacity 0 ⟨[], 0, 0, 0, 0⟩ 1 0).metadata with headerSize := headerSize }

theorem hello_reads_inside_fresh :
    ∃ client, receiveHello (.ok (helloDatagram 4)) (some (helloMetadata 4 384)) = some client ∧
      ((∀ (r : RingHeader) (localTail : UInt64) (out : Bool) (maxRecords : UInt64),
        r.metadata = client.metadata →
        SnapshotInside r localTail out maxRecords client.mappingSize) ↔
      client.metadata.capacity = 0 ∨
        client.metadata.headerSize ≤ UInt32.ofNat sizeofRingHeader) := by
  have hhello : receiveHello (.ok (helloDatagram 4)) (some (helloMetadata 4 384)) = some _ := rfl
  exact ⟨_, hhello, hello_reads_inside_iff hhello⟩

/-- A header of 416 bytes puts the only slot behind the mapping. -/
theorem hello_reads_outside : ¬ ∀ received mapped client,
    receiveHello received mapped = some client →
    ∀ (r : RingHeader) (localTail : UInt64) (out : Bool) (maxRecords : UInt64),
      r.metadata = client.metadata →
      SnapshotInside r localTail out maxRecords client.mappingSize := by
  intro h
  have hhello : receiveHello (.ok (helloDatagram 1)) (some (helloMetadata 1 416)) =
      some _ := rfl
  have hinside := h _ _ _ hhello (ringAtHead (helloMetadata 1 416) 1) 0 true 1 rfl
  have hslots : snapshotSlots (ringAtHead (helloMetadata 1 416) 1) 0 true 1 = [0] := by decide
  have hslot := hinside.inside 0 (by rw [hslots]; exact List.mem_singleton.2 rfl)
  revert hslot
  decide

end Hfior
