import Hfior.Library.LittleEndian

/-!
# The shared-memory and message ABI

The data of `include/hfior/abi.h`: the 32-byte record, the ring header with
its producer, consumer and statistics lines, and the control messages.  The
record array behind the header is the function `records` from the slot
index to the record in that slot.

Every field has the width of the C field.  Reserved words, the padding and
the alignment are left out, since no function reads them.

A control message travels as its C bytes.  `messageHeader`, `setModeMessage`
and `ackMessage` read a received buffer the way the casts in
`handle_control_message` do, on a little-endian machine, and
`ackMessage_bytes` is the round trip of an acknowledgement.
-/

namespace Hfior

/-! ## Constants -/

def HFIOR_ABI_VERSION : UInt32 := 2
/-- "HFIORV01". -/
def HFIOR_MAGIC : UInt64 := 0x4846494f52563031
def HFIOR_MAX_DEVICE_NAME : Nat := 96

def HFIOR_RECORD_MOTION : UInt16 := 1
def HFIOR_RECORD_BUTTON : UInt16 := 2
def HFIOR_RECORD_WHEEL : UInt16 := 4
def HFIOR_RECORD_SYN_DROPPED : UInt16 := 8
def HFIOR_RECORD_DEVICE_GONE : UInt16 := 16
def HFIOR_RECORD_DEVICE_READY : UInt16 := 32
def HFIOR_RECORD_OVERFLOW : UInt16 := 64
def HFIOR_RECORD_TERMINATE : UInt16 := 128

def HFIOR_MSG_SET_MODE : UInt32 := 2
def HFIOR_MSG_STOP : UInt32 := 5
def HFIOR_MSG_PING : UInt32 := 6
def HFIOR_MSG_PONG : UInt32 := 7
def HFIOR_MSG_ACK : UInt32 := 8
def HFIOR_MSG_START : UInt32 := 9
def HFIOR_MSG_STARTED : UInt32 := 10

def HFIOR_MODE_HFIOR : UInt32 := 1
def HFIOR_MODE_EAGER_THREAD : UInt32 := 2
def HFIOR_MODE_EAGER_FRAME : UInt32 := 3

/-! ## The ring -/

/-- One evdev `SYN_REPORT` frame. -/
structure Record where
  sequence : UInt64
  timestampNs : UInt64
  dx : Int32
  dy : Int32
  wheel : Int16
  hwheel : Int16
  buttons : UInt16
  flags : UInt16
deriving DecidableEq, Repr, Inhabited

/-- `record->flags & mask` is not zero. -/
def Record.has (record : Record) (mask : UInt16) : Bool :=
  record.flags &&& mask != 0

/-- A record with the given sequence and flags, and no movement. -/
def blankRecord (sequence : UInt64) (flags : UInt16) : Record :=
  ⟨sequence, 0, 0, 0, 0, 0, 0, flags⟩

/-- `sizeof(struct hfior_record)`. -/
def sizeofRecord : Nat := 32

/-- `sizeof(struct hfior_ring_header)`. -/
def sizeofRingHeader : Nat := 384

structure RingMetadata where
  magic : UInt64
  abiVersion : UInt32
  headerSize : UInt32
  recordSize : UInt32
  capacity : UInt32
  features : UInt64
  sourceClockId : UInt32
  inputBustype : UInt16
  inputVendor : UInt16
  inputProduct : UInt16
  inputVersion : UInt16
  deviceName : List UInt8
deriving DecidableEq, Repr, Inhabited

structure ProducerLine where
  head : UInt64
  nextSequence : UInt64
  droppedNewest : UInt64
  eagerSendDrops : UInt64
  generation : UInt64
  heartbeatNs : UInt64
  urgentWrites : UInt64
deriving DecidableEq, Repr, Inhabited

structure ConsumerLine where
  tail : UInt64
  deadlineNs : UInt64
  heartbeatNs : UInt64
  drains : UInt64
  recordsConsumed : UInt64
  generationSeen : UInt64
deriving DecidableEq, Repr, Inhabited

structure StatsLine where
  recordsPublished : UInt64
  motionFrames : UInt64
  buttonFrames : UInt64
  wheelFrames : UInt64
  synDroppedFrames : UInt64
  deviceReconnects : UInt64
  eagerPacketsSent : UInt64
deriving DecidableEq, Repr, Inhabited

/-- The mapped ring: the header, and the record array behind it. -/
structure RingHeader where
  metadata : RingMetadata
  producer : ProducerLine
  consumer : ConsumerLine
  stats : StatsLine
  records : Nat → Record

/-! ## Control messages -/

structure MessageHeader where
  type : UInt32
  size : UInt32
deriving DecidableEq, Repr

structure SetModeMessage where
  mode : UInt32
  consumerHz : UInt32
  requestedDeadlineNs : UInt64
deriving DecidableEq, Repr

structure AckMessage where
  generation : UInt64
  consumedTail : UInt64
deriving DecidableEq, Repr

structure EagerRecordMessage where
  generation : UInt64
  record : Record
deriving DecidableEq, Repr

structure DeviceStateMessage where
  generation : UInt64
  stateFlags : UInt32
deriving DecidableEq, Repr

def sizeofMessageHeader : Nat := 8
def sizeofSetModeMessage : Nat := 24
def sizeofAckMessage : Nat := 24

/-- The header at the start of a received buffer. -/
def messageHeader (buffer : List UInt8) : MessageHeader where
  type := UInt32.ofNat (wordAt 0 4 buffer)
  size := UInt32.ofNat (wordAt 4 4 buffer)

/-- The buffer read through a `struct hfior_set_mode_message` pointer. -/
def setModeMessage (buffer : List UInt8) : SetModeMessage where
  mode := UInt32.ofNat (wordAt 8 4 buffer)
  consumerHz := UInt32.ofNat (wordAt 12 4 buffer)
  requestedDeadlineNs := UInt64.ofNat (wordAt 16 8 buffer)

/-- The buffer read through a `struct hfior_ack_message` pointer. -/
def ackMessage (buffer : List UInt8) : AckMessage where
  generation := UInt64.ofNat (wordAt 8 8 buffer)
  consumedTail := UInt64.ofNat (wordAt 16 8 buffer)

/-- The bytes that a client sends for an acknowledgement. -/
def AckMessage.bytes (ack : AckMessage) : List UInt8 :=
  leBytes 4 HFIOR_MSG_ACK.toNat ++ (leBytes 4 sizeofAckMessage ++
    (leBytes 8 ack.generation.toNat ++ (leBytes 8 ack.consumedTail.toNat ++ [])))

theorem AckMessage.bytes_length (ack : AckMessage) :
    ack.bytes.length = sizeofAckMessage := by
  simp [AckMessage.bytes, sizeofAckMessage]

/-- The header of an encoded acknowledgement. -/
theorem messageHeader_ackBytes (ack : AckMessage) :
    messageHeader ack.bytes = ⟨HFIOR_MSG_ACK, UInt32.ofNat sizeofAckMessage⟩ := by
  have htype : wordAt 0 4 ack.bytes = HFIOR_MSG_ACK.toNat :=
    wordAt_append_leBytes [] rfl (by decide)
  have hsize : wordAt 4 4 ack.bytes = sizeofAckMessage :=
    wordAt_append_leBytes (leBytes 4 HFIOR_MSG_ACK.toNat)
      (leBytes_length _ _) (by decide)
  rw [messageHeader, htype, hsize]
  rfl

/-- An encoded acknowledgement is read back unchanged. -/
theorem ackMessage_bytes (ack : AckMessage) : ackMessage ack.bytes = ack := by
  have hgeneration : wordAt 8 8 ack.bytes = ack.generation.toNat := by
    rw [AckMessage.bytes, ← List.append_assoc]
    exact wordAt_append_leBytes _ (by simp) ack.generation.toNat_lt
  have htail : wordAt 16 8 ack.bytes = ack.consumedTail.toNat := by
    rw [AckMessage.bytes, ← List.append_assoc, ← List.append_assoc]
    exact wordAt_append_leBytes _ (by simp) ack.consumedTail.toNat_lt
  rw [ackMessage, hgeneration, htail]
  simp

/-- The bytes of a message that is a header only. -/
def headerBytes (type : UInt32) : List UInt8 :=
  leBytes 4 type.toNat ++ (leBytes 4 sizeofMessageHeader ++ [])

/-- The header of a message that is a header only. -/
theorem messageHeader_headerBytes (type : UInt32) :
    messageHeader (headerBytes type) =
      ⟨type, UInt32.ofNat sizeofMessageHeader⟩ := by
  have htype : wordAt 0 4 (headerBytes type) = type.toNat :=
    wordAt_append_leBytes [] rfl type.toNat_lt
  have hsize : wordAt 4 4 (headerBytes type) = sizeofMessageHeader :=
    wordAt_append_leBytes (leBytes 4 type.toNat) (leBytes_length _ _) (by decide)
  rw [messageHeader, htype, hsize, UInt32.ofNat_toNat]

/-- The bytes that a client sends for a SET_MODE. -/
def SetModeMessage.bytes (m : SetModeMessage) : List UInt8 :=
  leBytes 4 HFIOR_MSG_SET_MODE.toNat ++ (leBytes 4 sizeofSetModeMessage ++
    (leBytes 4 m.mode.toNat ++ (leBytes 4 m.consumerHz.toNat ++
      (leBytes 8 m.requestedDeadlineNs.toNat ++ []))))

theorem SetModeMessage.bytes_length (m : SetModeMessage) :
    m.bytes.length = sizeofSetModeMessage := by
  simp [SetModeMessage.bytes, sizeofSetModeMessage]

/-- The header of an encoded SET_MODE. -/
theorem messageHeader_setModeBytes (m : SetModeMessage) :
    messageHeader m.bytes =
      ⟨HFIOR_MSG_SET_MODE, UInt32.ofNat sizeofSetModeMessage⟩ := by
  have htype : wordAt 0 4 m.bytes = HFIOR_MSG_SET_MODE.toNat :=
    wordAt_append_leBytes [] rfl (by decide)
  have hsize : wordAt 4 4 m.bytes = sizeofSetModeMessage :=
    wordAt_append_leBytes (leBytes 4 HFIOR_MSG_SET_MODE.toNat)
      (leBytes_length _ _) (by decide)
  rw [messageHeader, htype, hsize]
  rfl

/-- An encoded SET_MODE is read back unchanged. -/
theorem setModeMessage_bytes (m : SetModeMessage) : setModeMessage m.bytes = m := by
  have hmode : wordAt 8 4 m.bytes = m.mode.toNat := by
    rw [SetModeMessage.bytes, ← List.append_assoc]
    exact wordAt_append_leBytes _ (by simp) m.mode.toNat_lt
  have hhz : wordAt 12 4 m.bytes = m.consumerHz.toNat := by
    rw [SetModeMessage.bytes, ← List.append_assoc, ← List.append_assoc]
    exact wordAt_append_leBytes _ (by simp) m.consumerHz.toNat_lt
  have hdeadline : wordAt 16 8 m.bytes = m.requestedDeadlineNs.toNat := by
    rw [SetModeMessage.bytes, ← List.append_assoc, ← List.append_assoc,
      ← List.append_assoc]
    exact wordAt_append_leBytes _ (by simp) m.requestedDeadlineNs.toNat_lt
  rw [setModeMessage, hmode, hhz, hdeadline]
  simp

end Hfior
