import Hfior.Ring

/-!
# The game client

`GameClient` is `struct hfior_game_client`, and its functions follow
`benchmarks/game/hfior_wayland_client.c`: the stream events, `connect`,
`disconnect`, `read` and `acknowledge`.

What Wayland, `fstat` and `mmap` return is an argument.  A pointer that the
code tests is a `Bool`: whether it is not `NULL`.  The fields that are only
passed on, closed or unmapped, and the device name, are left out.  The mapped
ring is not part of the client.  A function that reads it takes what it sees
there, and since each word of the ring is loaded once, that may be any ring.

The ghost field `trace` lists what the client does, in order.
-/

namespace Hfior

/-! ## Constants -/

def HFIOR_FEAT_READ_ONLY_RING : UInt64 := 128
def HFIOR_FEAT_ACK_PROGRESS : UInt64 := 256
def HFIOR_FEAT_WL_FIXED_DELTA : UInt64 := 1024

def HYPRLAND_HF_INPUT_STREAM_V1_FEATURE_HISTORY : UInt32 := 1
def HYPRLAND_HF_INPUT_STREAM_V1_CLOCK_MONOTONIC : UInt32 := 1
def HYPRLAND_HF_INPUT_STREAM_V1_NOTIFY_REASON_OVERFLOW : UInt32 := 2
def HYPRLAND_HF_INPUT_STREAM_V1_NOTIFY_REASON_REVOKED : UInt32 := 4

/-! ## State -/

/-- The arguments of `hyprland_hf_input_stream_v1_acknowledge`. -/
structure AckRequest where
  consumedTailHi : UInt32
  consumedTailLo : UInt32
  generationHi : UInt32
  generationLo : UInt32
deriving DecidableEq, Repr

/-- What a client does. -/
inductive GameEntry where
  /-- `set_error`, or a denial. -/
  | fault
  | disconnected
  /-- A `stream_active` that passed all its checks, and the tail that it
  loaded. -/
  | activated (tail : UInt64)
  /-- A read that returned true: its records, from this position on. -/
  | delivered (first : UInt64) (records : List Record)
  | ackSent (request : AckRequest)
  /-- An acknowledge that returned true. -/
  | acknowledged
deriving DecidableEq, Repr

structure GameClient where
  queue : Bool
  registry : Bool
  manager : Bool
  stream : Bool
  seat : Bool
  header : Bool
  capacity : UInt32
  generation : UInt64
  localTail : UInt64
  acknowledgedTail : UInt64
  expectedSequence : UInt64
  sequenceErrors : UInt64
  active : Bool
  faulted : Bool
  error : String
  trace : List GameEntry
deriving DecidableEq, Repr

namespace GameClient

/-- `hfior_game_client_create`. -/
def create : GameClient where
  queue := false
  registry := false
  manager := false
  stream := false
  seat := false
  header := false
  capacity := 0
  generation := 0
  localTail := 0
  acknowledgedTail := 0
  expectedSequence := 0
  sequenceErrors := 0
  active := false
  faulted := false
  error := ""
  trace := []

variable (c : GameClient)

/-- One more entry of the trace. -/
def log (entry : GameEntry) : GameClient := { c with trace := c.trace ++ [entry] }

/-- `set_error`. -/
def setError (message : String) : GameClient :=
  log { c with active := false, faulted := true, error := message } .fault

/-- `hfior_game_client_disconnect`.  The fault and the error stay. -/
def disconnect : GameClient :=
  log { c with
    queue := false
    registry := false
    manager := false
    stream := false
    seat := false
    header := false
    capacity := 0
    generation := 0
    localTail := 0
    acknowledgedTail := 0
    expectedSequence := 0
    active := false } .disconnected

end GameClient

/-! ## Stream events -/

/-- The arguments of `stream_active`, with what `fstat` says about the size
of `ring_fd` and what `mmap` maps, unless they fail. -/
structure Activation where
  ringFd : Int32
  notifyFd : Int32
  mappingSize : UInt32
  capacity : UInt32
  sampleStride : UInt32
  clockId : UInt32
  features : UInt32
  generationHi : UInt32
  generationLo : UInt32
  fileSize : Option Int64
  mapped : Option RingHeader

/-- `required_size`. -/
def requiredSize (capacity : UInt32) : UInt64 :=
  if isPowerOfTwoU32 capacity then mappingSize capacity else 0xffffffffffffffff

/-- The bounds that `stream_active` checks before it maps the ring. -/
def Activation.boundsValid (a : Activation) : Bool :=
  !(a.ringFd < 0 || a.notifyFd < 0 || !isPowerOfTwoU32 a.capacity ||
    a.sampleStride != UInt32.ofNat sizeofRecord ||
    a.mappingSize.toUInt64 < requiredSize a.capacity ||
    match a.fileSize with
    | none => true
    | some size => size < 0 || size.toUInt64 < a.mappingSize.toUInt64)

/-- `required_features`. -/
def requiredFeatures : UInt64 :=
  HFIOR_FEAT_READ_ONLY_RING ||| HFIOR_FEAT_ACK_PROGRESS ||| HFIOR_FEAT_WL_FIXED_DELTA

/-- The checks of `stream_active` on the mapped header. -/
def Activation.headerValid (a : Activation) (header : RingHeader) : Bool :=
  header.metadata.magic == HFIOR_MAGIC &&
  header.metadata.abiVersion == HFIOR_ABI_VERSION &&
  header.metadata.headerSize == UInt32.ofNat sizeofRingHeader &&
  header.metadata.recordSize == UInt32.ofNat sizeofRecord &&
  header.metadata.capacity == a.capacity &&
  header.metadata.features &&& requiredFeatures == requiredFeatures &&
  a.features &&& HYPRLAND_HF_INPUT_STREAM_V1_FEATURE_HISTORY != 0 &&
  a.clockId == HYPRLAND_HF_INPUT_STREAM_V1_CLOCK_MONOTONIC

namespace GameClient

/-- The stores of a `stream_active` that has passed its checks. -/
def activate (c : GameClient) (a : Activation) (header : RingHeader) : GameClient :=
  log { c with
    header := true
    capacity := a.capacity
    generation := a.generationHi.toUInt64 <<< 32 ||| a.generationLo.toUInt64
    localTail := header.consumer.tail
    acknowledgedTail := header.consumer.tail
    expectedSequence := 0
    active := true
    faulted := false
    error := "" } (.activated header.consumer.tail)

/-- `stream_active`. -/
def streamActive (c : GameClient) (a : Activation) : GameClient :=
  if !a.boundsValid then c.setError "compositor supplied invalid HFIOR ring bounds"
  else match a.mapped with
    | none => c.setError "could not map the HFIOR ring read-only"
    | some header =>
      if !a.headerValid header then
        c.setError "compositor and benchmark HFIOR ABIs do not match"
      else c.activate a header

/-- `stream_notify`.  The latest head is not used. -/
def streamNotify (c : GameClient) (reason : UInt32) : GameClient :=
  if reason == HYPRLAND_HF_INPUT_STREAM_V1_NOTIFY_REASON_OVERFLOW then
    c.setError "HFIOR reported explicit ring overflow"
  else if reason == HYPRLAND_HF_INPUT_STREAM_V1_NOTIFY_REASON_REVOKED then
    c.setError "HFIOR authorization was revoked"
  else c

/-- `stream_denied`. -/
def streamDenied (c : GameClient) (reason : UInt32) : GameClient :=
  log { c with
    active := false
    faulted := true
    error := "HFIOR authorization denied (reason " ++ toString reason.toNat ++ ")" } .fault

/-- `stream_revoked`.  No argument is used. -/
def streamRevoked (c : GameClient) : GameClient :=
  c.setError "HFIOR stream was revoked"

end GameClient

/-! ## The event queue -/

/-- The interfaces that `registry_global` tells apart. -/
inductive GlobalInterface where
  | manager | seat | other
deriving DecidableEq, Repr

/-- An event of the private queue.  `bound` is the result of
`wl_registry_bind`. -/
inductive QueueEvent where
  | global (name : GlobalInterface) (bound : Bool)
  | globalRemove
  | active (activation : Activation)
  | notify (reason latestHeadHi latestHeadLo : UInt32)
  | denied (reason : UInt32)
  | revoked (reason finalHeadHi finalHeadLo generationHi generationLo : UInt32)

/-- What a dispatch or a roundtrip of the queue delivers, and whether it
succeeds. -/
structure Dispatch where
  events : List QueueEvent
  succeeds : Bool

/-- What `hfior_game_client_connect` meets. -/
structure ConnectEnv where
  waylandDisplay : Bool
  waylandSurface : Bool
  queue : Bool
  wrapper : Bool
  registry : Bool
  /-- The globals of the registry roundtrip. -/
  globals : List (GlobalInterface × Bool)
  registryRoundtrip : Bool
  stream : Bool
  activation : Dispatch

namespace GameClient

/-- `registry_global`. -/
def registryGlobal (c : GameClient) (name : GlobalInterface) (bound : Bool) :
    GameClient :=
  match name with
  | .manager => if !c.manager then { c with manager := bound } else c
  | .seat => if !c.seat then { c with seat := bound } else c
  | .other => c

/-- The listener of an event. -/
def handle (c : GameClient) : QueueEvent → GameClient
  | .global name bound => c.registryGlobal name bound
  | .globalRemove => c
  | .active activation => c.streamActive activation
  | .notify reason _ _ => c.streamNotify reason
  | .denied reason => c.streamDenied reason
  | .revoked _ _ _ _ _ => c.streamRevoked

/-- The listeners of some events, in order. -/
def handleAll (c : GameClient) (events : List QueueEvent) : GameClient :=
  events.foldl handle c

/-- `hfior_game_client_active`. -/
def isActive (c : GameClient) : Bool := c.active && !c.faulted

/-- `hfior_game_client_error`. -/
def errorText (c : GameClient) : String := if c.error != "" then c.error else "none"

/-- The part of `hfior_game_client_connect` behind the stream request. -/
def awaitActivation (c : GameClient) (activation : Dispatch) : Bool × GameClient :=
  let c := c.handleAll activation.events
  if !activation.succeeds then (false, c.setError "HFIOR activation roundtrip failed")
  else (c.isActive, c)

/-- The part of `hfior_game_client_connect` behind the registry request. -/
def bindGlobals (c : GameClient) (env : ConnectEnv) : Bool × GameClient :=
  let c := env.globals.foldl (fun c g => c.registryGlobal g.1 g.2) c
  if !env.registryRoundtrip then (false, c.setError "Wayland registry roundtrip failed")
  else if !c.manager then
    (false, c.setError "Hyprland does not advertise the HFIOR protocol")
  else if !c.seat then (false, c.setError "Wayland seat is unavailable")
  else
    let c := { c with stream := env.stream }
    if !c.stream then (false, c.setError "could not allocate an HFIOR stream")
    else c.awaitActivation env.activation

/-- `hfior_game_client_connect`. -/
def connect (c : GameClient) (env : ConnectEnv) : Bool × GameClient :=
  if !env.waylandDisplay || !env.waylandSurface then (false, c)
  else
    let c := { c.disconnect with faulted := false, error := "", queue := env.queue }
    if !c.queue then
      (false, c.setError "could not create a private Wayland event queue")
    else if !env.wrapper then
      (false, c.setError "could not wrap the SDL Wayland display")
    else
      let c := { c with registry := env.registry }
      if !c.registry then (false, c.setError "could not obtain the Wayland registry")
      else c.bindGlobals env

end GameClient

/-! ## Reading -/

/-- `struct hfior_game_motion`, with the displacement in units of 1/256. -/
structure Motion where
  dx : Int32
  dy : Int32
  timestampNs : UInt64
deriving DecidableEq, Repr

/-- The motion of a record. -/
def Record.motion (record : Record) : Motion :=
  ⟨record.dx, record.dy, record.timestampNs⟩

/-- `struct hfior_game_batch`, with the totals in units of 1/256. -/
structure Batch where
  dx : Int64
  dy : Int64
  records : UInt64
  newestTimestampNs : UInt64
  producerDrops : UInt64
  sequenceErrors : UInt64
deriving DecidableEq, Repr

/-- The batch of a `memset` to zero. -/
def emptyBatch : Batch := ⟨0, 0, 0, 0, 0, 0⟩

/-- The variables of the copy loop, and the motions that it has written. -/
structure CopyLoop where
  expected : UInt64
  dx : Int64
  dy : Int64
  newest : UInt64
  motions : List Motion
deriving DecidableEq, Repr

/-- A zero sequence, or one that is not the expected one. -/
def sequenceError (expected sequence : UInt64) : Bool :=
  sequence == 0 || (expected != 0 && sequence != expected)

/-- The loop on one record after the other.  It is over at a sequence error,
and the flag says whether it came to the end. -/
def CopyLoop.run (l : CopyLoop) : List Record → Bool × CopyLoop
  | [] => (true, l)
  | record :: rest =>
    if sequenceError l.expected record.sequence then (false, l)
    else CopyLoop.run {
      expected := record.sequence + 1
      dx := l.dx + record.dx.toInt64
      dy := l.dy + record.dy.toInt64
      newest := record.timestampNs
      motions := l.motions ++ [record.motion] } rest

/-- The slots of the positions from `first` on, `count` of them. -/
def slotsFrom (records : Nat → Record) (capacity : UInt32) (first : UInt64)
    (count : Nat) : List Record :=
  (List.range count).map fun i => records (slotIndex capacity (first + UInt64.ofNat i))

/-- The arguments of a read, and what it meets.  `motionCapacity` is there
if `motions` is not `NULL`, and `dispatch` if `dispatch_pending` is set. -/
structure ReadEnv where
  batch : Bool
  dispatch : Option Dispatch
  ring : RingHeader
  motionCapacity : Option UInt64

/-- What a read returns, writes and leaves. -/
structure ReadResult where
  ok : Bool
  batch : Batch
  motions : List Motion
  client : GameClient

namespace GameClient

/-- A read that returns false. -/
def readFailed (batch : Batch) (motions : List Motion) (c : GameClient) : ReadResult :=
  ⟨false, batch, motions, c⟩

/-- The copy loop of `hfior_game_client_read`, and all behind it. -/
def copyRecords (c : GameClient) (ring : RingHeader) (head : UInt64) (writes : Bool) :
    ReadResult :=
  let available := head - c.localTail
  let records := slotsFrom ring.records c.capacity c.localTail available.toNat
  let (complete, loop) := CopyLoop.run ⟨c.expectedSequence, 0, 0, 0, []⟩ records
  let motions := if writes then loop.motions else []
  if !complete then
    let c := { c with sequenceErrors := c.sequenceErrors + 1 }
    readFailed { emptyBatch with sequenceErrors := c.sequenceErrors } motions
      (c.setError "HFIOR sequence gap or reordering detected")
  else {
    ok := true
    batch := {
      dx := loop.dx
      dy := loop.dy
      records := available
      newestTimestampNs := loop.newest
      producerDrops := 0
      sequenceErrors := c.sequenceErrors }
    motions := motions
    client := log { c with localTail := head, expectedSequence := loop.expected }
      (.delivered c.localTail records) }

/-- The part of `hfior_game_client_read` behind the dispatch. -/
def readRing (c : GameClient) (env : ReadEnv) : ReadResult :=
  if !c.active || c.faulted then readFailed emptyBatch [] c
  else
    let head := env.ring.producer.head
    let drops := env.ring.producer.droppedNewest
    if drops != 0 then
      readFailed { emptyBatch with producerDrops := drops } []
        (c.setError "HFIOR producer drop counter is nonzero")
    else if head < c.localTail || head - c.localTail > c.capacity.toUInt64 then
      readFailed emptyBatch [] (c.setError "HFIOR ring bounds are invalid")
    else if env.motionCapacity.any fun motionCapacity =>
        head - c.localTail > motionCapacity then
      readFailed emptyBatch []
        (c.setError "benchmark motion buffer is smaller than ring depth")
    else c.copyRecords env.ring head env.motionCapacity.isSome

/-- `hfior_game_client_read`. -/
def read (c : GameClient) (env : ReadEnv) : ReadResult :=
  if !env.batch then readFailed emptyBatch [] c
  else if !c.active || !c.header then readFailed emptyBatch [] c
  else match env.dispatch with
    | none => c.readRing env
    | some dispatch =>
      let c := c.handleAll dispatch.events
      if !dispatch.succeeds then
        readFailed emptyBatch [] (c.setError "Wayland HFIOR dispatch failed")
      else c.readRing env

/-! ## Acknowledging -/

/-- The request for a tail. -/
def ackRequest (c : GameClient) : AckRequest where
  consumedTailHi := (c.localTail >>> 32).toUInt32
  consumedTailLo := c.localTail.toUInt32
  generationHi := (c.generation >>> 32).toUInt32
  generationLo := c.generation.toUInt32

/-- `hfior_game_client_acknowledge`, where `flush` is the result of
`wl_display_flush`. -/
def acknowledge (c : GameClient) (flush : IoResult) : Bool × GameClient :=
  if !c.active || !c.stream then (false, c)
  else if c.localTail == c.acknowledgedTail then (true, c.log .acknowledged)
  else
    let c := { c.log (.ackSent c.ackRequest) with acknowledgedTail := c.localTail }
    match flush with
    | .done | .failed .EAGAIN => (true, c.log .acknowledged)
    | .failed _ => (false, c.setError "Wayland HFIOR acknowledgement failed")

end GameClient

/-! ## A stream -/

/-- A ring of four slots that holds two records of a stream. -/
def gameRing : RingHeader :=
  { freshHeader 4 requiredFeatures default 1 0 with
    producer := ⟨2, 3, 0, 0, 1, 0, 0⟩
    records := fun i => ⟨UInt64.ofNat (i + 1), 10, 3, -1, 0, 0, 0, HFIOR_RECORD_MOTION⟩ }

/-- The activation of this ring. -/
def gameActivation : Activation where
  ringFd := 3
  notifyFd := 4
  mappingSize := 512
  capacity := 4
  sampleStride := 32
  clockId := HYPRLAND_HF_INPUT_STREAM_V1_CLOCK_MONOTONIC
  features := HYPRLAND_HF_INPUT_STREAM_V1_FEATURE_HISTORY
  generationHi := 0
  generationLo := 1
  fileSize := some 512
  mapped := some gameRing

/-- A compositor that grants the stream. -/
def grantedStream : ConnectEnv where
  waylandDisplay := true
  waylandSurface := true
  queue := true
  wrapper := true
  registry := true
  globals := [(.seat, true), (.manager, true)]
  registryRoundtrip := true
  stream := true
  activation := ⟨[.active gameActivation], true⟩

/-- A read of the ring, into a buffer of four motions. -/
def gameRead : ReadEnv := ⟨true, none, gameRing, some 4⟩

example : (GameClient.create.connect grantedStream).1 = true := by decide

end Hfior
