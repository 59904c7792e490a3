import Hfior.Ring

/-!
# The state of the reference bridge

The part of `struct bridge` in `reference/bridge/main.c` that its ring, its
control socket and its urgent eventfd need, and the functions that write to
the last two.

Every outcome of a system call is an argument.  `IoResult` says what a
`send` or an eventfd `write` did after its `EINTR` loop, and a received
datagram is the list of its bytes.  A warning on `stderr` is left out.

`Bridge` holds the counter of the eventfd in `urgentFd`, since the bridge
is its only writer while the client runs.

The lemmas at the end of each section say what a function leaves alone.
`SameWindow` covers the head, the tail, the slots and the geometry at once.
-/

namespace Hfior

/-! ## State -/

/-- The options that the functions below test. -/
structure BridgeConfig where
  /-- `config.device_path` is set. -/
  devicePath : Bool
  /-- `config.trace_path` is set. -/
  tracePath : Bool
deriving DecidableEq, Repr

structure BridgeStats where
  recordsAttempted : UInt64
  recordsPublished : UInt64
  ringDrops : UInt64
  eagerPacketsSent : UInt64
  eagerSendDrops : UInt64
  urgentWrites : UInt64
  buttonTransitions : UInt64
  deviceDisconnects : UInt64
  deviceReconnects : UInt64
  controlMessages : UInt64
  malformedMessages : UInt64
  acknowledgements : UInt64
  invalidAcknowledgements : UInt64
deriving DecidableEq, Repr

structure PublicationTraceEntry where
  sequence : UInt64
  sourceTimestampNs : UInt64
  publishBeginNs : UInt64
  publishEndNs : UInt64
  headAfter : UInt64
  published : UInt32
deriving DecidableEq, Repr

structure Bridge where
  config : BridgeConfig
  stats : BridgeStats
  ring : RingHeader
  /-- The counter of the urgent eventfd. -/
  urgentFd : UInt64
  clientFd : Int32
  inputFd : Int32
  mode : UInt32
  generation : UInt64
  sourceReady : Bool
  publicationTrace : List PublicationTraceEntry
  /-- The global `stop_requested`. -/
  stopRequested : Bool

/-- The bridge of `main` once the ring is initialised and the client has
connected: mode `HFIOR_MODE_HFIOR`, generation 1. -/
def Bridge.boot (config : BridgeConfig) (ring : RingHeader)
    (clientFd inputFd : Int32) : Bridge where
  config := config
  stats := ⟨0, 0, 0, 0, 0, 0, 0, 0, 0, 0, 0, 0, 0⟩
  ring := ring
  urgentFd := 0
  clientFd := clientFd
  inputFd := inputFd
  mode := HFIOR_MODE_HFIOR
  generation := 1
  sourceReady := config.devicePath
  publicationTrace := []
  stopRequested := false

/-- A bridge with a device, on a fresh ring of the given capacity. -/
def freshBridge (capacity : UInt32) : Bridge :=
  Bridge.boot ⟨true, false⟩
    (freshHeader capacity 0 ⟨[], 0, 0, 0, 0⟩ 1 0) 5 6

/-! ## The urgent eventfd and the control socket -/

/-- `write_urgent`: a write that succeeds adds one to the counter. -/
def writeUrgent (b : Bridge) : IoResult → Bridge
  | .done => { b with
      urgentFd := b.urgentFd + 1
      stats.urgentWrites := b.stats.urgentWrites + 1
      ring.producer.urgentWrites := b.ring.producer.urgentWrites + 1 }
  | .failed _ => b

/-- `send_device_state`: the bridge, and the message if the socket took
it. -/
def sendDeviceState (b : Bridge) (flags : UInt16) (send urgent : IoResult) :
    Bridge × Option DeviceStateMessage :=
  if b.clientFd < 0 then (b, none)
  else (writeUrgent b urgent, match send with
    | .done => some ⟨b.generation, flags.toUInt32⟩
    | .failed _ => none)

/-- The two counters of an eager record that the socket took. -/
def countEagerSent (b : Bridge) : Bridge :=
  { b with
    stats.eagerPacketsSent := b.stats.eagerPacketsSent + 1
    ring.stats.eagerPacketsSent := b.ring.stats.eagerPacketsSent + 1 }

/-- The two counters of an eager record that found the socket full. -/
def countEagerDrop (b : Bridge) : Bridge :=
  { b with
    stats.eagerSendDrops := b.stats.eagerSendDrops + 1
    ring.producer.eagerSendDrops := b.ring.producer.eagerSendDrops + 1 }

/-- `send_eager_record`: the bridge, and the message if the socket took
it. -/
def sendEagerRecord (b : Bridge) (record : Record) (send urgent : IoResult) :
    Bridge × Option EagerRecordMessage :=
  if b.clientFd < 0 || b.mode == HFIOR_MODE_HFIOR then (b, none)
  else match send with
    | .done => (countEagerSent b, some ⟨b.generation, record⟩)
    | .failed .EAGAIN | .failed .ENOBUFS =>
      (writeUrgent (countEagerDrop b) urgent, none)
    | .failed .EPIPE | .failed .ECONNRESET =>
      ({ b with stopRequested := true }, none)
    | .failed _ => (b, none)

section
variable (b : Bridge) (record : Record) (flags : UInt16) (send urgent : IoResult)

theorem sameWindow_writeUrgent : SameWindow b.ring (writeUrgent b urgent).ring := by
  cases urgent <;> exact ⟨rfl, rfl, rfl, rfl⟩

@[simp] theorem writeUrgent_generation :
    (writeUrgent b urgent).generation = b.generation := by
  cases urgent <;> rfl

@[simp] theorem writeUrgent_producer_generation :
    (writeUrgent b urgent).ring.producer.generation =
      b.ring.producer.generation := by
  cases urgent <;> rfl

@[simp] theorem writeUrgent_mode : (writeUrgent b urgent).mode = b.mode := by
  cases urgent <;> rfl

theorem sameLedger_writeUrgent : SameLedger b.ring (writeUrgent b urgent).ring := by
  cases urgent <;> exact ⟨rfl, rfl⟩

private theorem sameWindow_countEagerDrop :
    SameWindow b.ring (writeUrgent (countEagerDrop b) urgent).ring :=
  have hcount : SameWindow b.ring (countEagerDrop b).ring := ⟨rfl, rfl, rfl, rfl⟩
  hcount.trans (sameWindow_writeUrgent _ urgent)

theorem sameWindow_sendEagerRecord :
    SameWindow b.ring (sendEagerRecord b record send urgent).1.ring := by
  unfold sendEagerRecord
  split
  · exact SameWindow.refl _
  · split
    · exact ⟨rfl, rfl, rfl, rfl⟩
    · exact sameWindow_countEagerDrop b urgent
    · exact sameWindow_countEagerDrop b urgent
    all_goals exact SameWindow.refl _

theorem sameLedger_sendEagerRecord :
    SameLedger b.ring (sendEagerRecord b record send urgent).1.ring := by
  have hdrop : SameLedger b.ring (countEagerDrop b).ring := ⟨rfl, rfl⟩
  unfold sendEagerRecord
  split
  · exact SameLedger.refl _
  · split
    · exact ⟨rfl, rfl⟩
    · exact hdrop.trans (sameLedger_writeUrgent _ urgent)
    · exact hdrop.trans (sameLedger_writeUrgent _ urgent)
    all_goals exact SameLedger.refl _

end

end Hfior
