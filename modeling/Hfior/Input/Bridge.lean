import Hfior.Bridge.Control
import Hfior.Bridge.Publish
import Hfior.Input.Event

/-!
# The input side of the bridge

`InputBridge` is `struct bridge` with its frame accumulator, its input
counters and its synthetic source.  The functions follow
`reference/bridge/main.c`: `complete_frame`, `process_input_event`,
`drain_input_device`, `emit_synthetic`, `refresh_button_state` and
`discard_pending_input`.

The results of the clocks and of the system calls are arguments.  The raw
log is left out, since nothing reads it back.
-/

namespace Hfior

/-! ## State -/

/-- The options and the variables of the synthetic source. -/
structure SyntheticSource where
  /-- `config.synthetic_button_every`. -/
  buttonEvery : UInt32
  /-- `config.synthetic_publish_timestamps`. -/
  publishTimestamps : Bool
  /-- The static `synthetic_index`. -/
  index : UInt64
  periodNs : UInt64
  nextTimestampNs : UInt64
deriving DecidableEq, Repr

structure InputBridge extends Bridge where
  frame : FrameAccumulator
  /-- `stats.input_events`. -/
  inputEvents : UInt64
  /-- `stats.syn_reports`. -/
  synReports : UInt64
  synthetic : SyntheticSource

/-- The input side of a bridge that has read nothing. -/
def InputBridge.boot (b : Bridge) (synthetic : SyntheticSource) : InputBridge :=
  { b with
    frame := cleanFrame 0
    inputEvents := 0
    synReports := 0
    synthetic := synthetic }

/-- A bridge with a device on a fresh ring, and a clean frame. -/
def freshInput (capacity : UInt32) : InputBridge :=
  .boot (freshBridge capacity) ⟨0, false, 0, 0, 0⟩

/-- The clock of `complete_frame`, and what its `publish_record` meets. -/
structure FrameEnv where
  nowNs : UInt64
  publish : PublishEnv
deriving DecidableEq, Repr

/-- An event, and what its frame would meet if it is a report. -/
structure Reading where
  event : InputEvent
  env : FrameEnv
deriving DecidableEq, Repr

/-- An event read with all clocks at zero, and system calls that succeed. -/
def quietReading (event : InputEvent) : Reading := ⟨event, ⟨0, quietEnv⟩⟩

/-! ## Frames -/

/-- `publish_record` on the bridge with its input side. -/
def InputBridge.publish (b : InputBridge) (env : PublishEnv) (record : Record) :
    Publication × InputBridge :=
  let p := publishRecord b.toBridge env record
  (p, { b with toBridge := p.bridge })

/-- `complete_frame`. -/
def completeFrame (b : InputBridge) (timestampNs : UInt64) (env : FrameEnv) :
    Publication × InputBridge :=
  let (p, b) := b.publish env.publish (frameRecord b.frame timestampNs env.nowNs)
  (p, { b with
    synReports := b.synReports + 1
    frame := cleanFrame b.frame.buttons })

/-- The part of `process_input_event` before a frame is completed. -/
def takeEvent (b : InputBridge) (e : InputEvent) : InputBridge :=
  { b with inputEvents := b.inputEvents + 1, frame := accumulate b.frame e }

/-- `process_input_event`. -/
def processInputEvent (b : InputBridge) (reading : Reading) :
    Option Publication × InputBridge :=
  let b := takeEvent b reading.event
  if reading.event.isReport then
    let (p, b) := completeFrame b (timevalToNs reading.event.time) reading.env
    (some p, b)
  else (none, b)

/-- `process_input_event` on one event after the other. -/
def processInput (b : InputBridge) : List Reading → List Publication × InputBridge
  | [] => ([], b)
  | reading :: rest =>
    let (p, b) := processInputEvent b reading
    let (ps, b) := processInput b rest
    (p.toList ++ ps, b)

/-! ## The input device -/

/-- What a `read` of the input descriptor returns: whole events, a number of
bytes that no events have, the end of the file, or an error. -/
inductive DeviceRead where
  | events (readings : List Reading)
  | torn
  | eof
  | failed (errno : Errno)

/-- `drain_input_device`.  A list of reads that runs out ends in `EAGAIN`. -/
def drainInputDevice (b : InputBridge) :
    List DeviceRead → Int32 × List Publication × InputBridge
  | [] => (0, [], b)
  | .events readings :: rest =>
    let (ps, b) := processInput b readings
    let (rc, ps', b) := drainInputDevice b rest
    (rc, ps ++ ps', b)
  | .failed .EINTR :: rest => drainInputDevice b rest
  | .failed .EAGAIN :: _ => (0, [], b)
  | .torn :: _ | .eof :: _ | .failed _ :: _ => (-1, [], b)

/-! ## The synthetic source -/

/-- The frame of the next synthetic record. -/
def syntheticFrame (f : FrameAccumulator) (source : SyntheticSource) :
    FrameAccumulator :=
  let f := { f with
    dx := if source.index &&& 1 != 0 then 3 else -3
    dy := if source.index % 3 != 0 then -1 else 1 }
  if source.buttonEvery != 0 && source.index % source.buttonEvery.toUInt64 == 0 then
    { f with
      buttons := f.buttons ^^^ HFIOR_BUTTON_LEFT
      flags := f.flags ||| HFIOR_RECORD_BUTTON }
  else f

/-- One round of the loop of `emit_synthetic`, where `nowNs` is the clock of
a source that publishes its own time. -/
def emitOne (b : InputBridge) (nowNs : UInt64) (env : FrameEnv) :
    Publication × InputBridge :=
  let source := { b.synthetic with index := b.synthetic.index + 1 }
  let timestampNs := if source.publishTimestamps then nowNs else source.nextTimestampNs
  completeFrame { b with
    frame := syntheticFrame b.frame source
    synthetic := { source with
      nextTimestampNs := source.nextTimestampNs + source.periodNs } } timestampNs env

/-- The first rounds of the loop of `emit_synthetic`. -/
def emitRounds (b : InputBridge) (clock : Nat → UInt64) (env : Nat → FrameEnv) :
    Nat → List Publication × InputBridge
  | 0 => ([], b)
  | n + 1 =>
    let (ps, b) := emitRounds b clock env n
    let (p, b) := emitOne b (clock n) (env n)
    (ps ++ [p], b)

/-- `emit_synthetic`: at most a million records at once. -/
def emitSynthetic (b : InputBridge) (expirations : UInt64)
    (clock : Nat → UInt64) (env : Nat → FrameEnv) : List Publication × InputBridge :=
  emitRounds b clock env (min expirations 1000000).toNat

/-! ## The key state of the device -/

/-- `KEY_MAX`. -/
def keyMax : Nat := 0x2ff

/-- The 64-bit words that `EVIOCGKEY` fills. -/
abbrev KeyBitmap := Vector UInt64 ((keyMax + 1 + 63) / 64)

/-- `key_bit_is_set`.  No code of the table is beyond the words. -/
def keyBitIsSet (bits : KeyBitmap) (code : UInt16) : Bool :=
  ((bits[code.toNat / 64]?.getD 0) >>> UInt64.ofNat (code.toNat % 64)) &&& 1 != 0

/-- The array of `refresh_button_state`. -/
def refreshCodes : List UInt16 :=
  [BTN_LEFT, BTN_RIGHT, BTN_MIDDLE, BTN_SIDE, BTN_EXTRA, BTN_FORWARD, BTN_BACK,
    BTN_TASK]

/-- The mask that the loop of `refresh_button_state` builds. -/
def refreshedButtons (keys : KeyBitmap) : UInt16 :=
  refreshCodes.foldl (fun buttons code =>
    if keyBitIsSet keys code then buttons ||| buttonBitFromLinuxCode code
    else buttons) 0

/-- `refresh_button_state`, where `keys` is what `EVIOCGKEY` returned, unless
it failed. -/
def refreshButtonState (b : InputBridge) (keys : Option KeyBitmap) : InputBridge :=
  if b.inputFd < 0 then b
  else match keys with
    | none => b
    | some keys => { b with frame.buttons := refreshedButtons keys }

/-- The reads of `discard_pending_input`, which throw the events away. -/
def discardReads : List DeviceRead → Int32
  | [] => 0
  | .events _ :: rest | .torn :: rest | .failed .EINTR :: rest => discardReads rest
  | .failed .EAGAIN :: _ => 0
  | .eof :: _ | .failed _ :: _ => -1

/-- `discard_pending_input`. -/
def discardPendingInput (b : InputBridge) (reads : List DeviceRead)
    (keys : Option KeyBitmap) : Int32 × InputBridge :=
  if b.inputFd < 0 then (0, b)
  else if discardReads reads != 0 then (-1, b)
  else (0, refreshButtonState { b with frame := cleanFrame 0 } keys)

end Hfior
