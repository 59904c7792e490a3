import Hfior.Abi

/-!
# evdev events and the frame accumulator

`struct input_event`, the codes of `linux/input-event-codes.h` that the
bridge tests, and what `process_input_event` does to `struct
frame_accumulator`.

The accumulators are 64-bit machine integers and wrap around.  A frame needs
at least 2^32 events to get there.
-/

namespace Hfior

/-! ## Events -/

structure Timeval where
  tvSec : Int64
  tvUsec : Int64
deriving DecidableEq, Repr

/-- `timeval_to_ns`. -/
def timevalToNs (time : Timeval) : UInt64 :=
  if time.tvSec < 0 || time.tvUsec < 0 then 0
  else time.tvSec.toUInt64 * 1000000000 + time.tvUsec.toUInt64 * 1000

structure InputEvent where
  time : Timeval
  type : UInt16
  code : UInt16
  value : Int32
deriving DecidableEq, Repr

def EV_SYN : UInt16 := 0x00
def EV_KEY : UInt16 := 0x01
def EV_REL : UInt16 := 0x02

def SYN_REPORT : UInt16 := 0
def SYN_DROPPED : UInt16 := 3

def REL_X : UInt16 := 0x00
def REL_Y : UInt16 := 0x01
def REL_HWHEEL : UInt16 := 0x06
def REL_WHEEL : UInt16 := 0x08
def REL_WHEEL_HI_RES : UInt16 := 0x0b
def REL_HWHEEL_HI_RES : UInt16 := 0x0c

def BTN_8 : UInt16 := 0x108
def BTN_9 : UInt16 := 0x109
def BTN_LEFT : UInt16 := 0x110
def BTN_RIGHT : UInt16 := 0x111
def BTN_MIDDLE : UInt16 := 0x112
def BTN_SIDE : UInt16 := 0x113
def BTN_EXTRA : UInt16 := 0x114
def BTN_FORWARD : UInt16 := 0x115
def BTN_BACK : UInt16 := 0x116
def BTN_TASK : UInt16 := 0x117

/-- An event that completes a frame. -/
def InputEvent.isReport (e : InputEvent) : Bool :=
  e.type == EV_SYN && e.code == SYN_REPORT

/-- An event that says that the kernel has dropped others. -/
def InputEvent.isDropped (e : InputEvent) : Bool :=
  e.type == EV_SYN && e.code == SYN_DROPPED

/-- A relative event of the given axis. -/
def InputEvent.isRel (e : InputEvent) (code : UInt16) : Bool :=
  e.type == EV_REL && e.code == code

/-- An event without a time, as the kernel would send it. -/
def untimed (type code : UInt16) (value : Int32) : InputEvent :=
  ⟨⟨0, 0⟩, type, code, value⟩

/-! ## Buttons -/

def HFIOR_BUTTON_LEFT : UInt16 := 1
def HFIOR_BUTTON_RIGHT : UInt16 := 2
def HFIOR_BUTTON_MIDDLE : UInt16 := 4
def HFIOR_BUTTON_SIDE : UInt16 := 8
def HFIOR_BUTTON_EXTRA : UInt16 := 16
def HFIOR_BUTTON_FORWARD : UInt16 := 32
def HFIOR_BUTTON_BACK : UInt16 := 64
def HFIOR_BUTTON_TASK : UInt16 := 128
def HFIOR_BUTTON_8 : UInt16 := 256
def HFIOR_BUTTON_9 : UInt16 := 512

/-- The keys that have a bit, with their bits. -/
def buttonTable : List (UInt16 × UInt16) :=
  [(BTN_LEFT, HFIOR_BUTTON_LEFT), (BTN_RIGHT, HFIOR_BUTTON_RIGHT),
    (BTN_MIDDLE, HFIOR_BUTTON_MIDDLE), (BTN_SIDE, HFIOR_BUTTON_SIDE),
    (BTN_EXTRA, HFIOR_BUTTON_EXTRA), (BTN_FORWARD, HFIOR_BUTTON_FORWARD),
    (BTN_BACK, HFIOR_BUTTON_BACK), (BTN_TASK, HFIOR_BUTTON_TASK),
    (BTN_8, HFIOR_BUTTON_8), (BTN_9, HFIOR_BUTTON_9)]

/-- `hfior_button_bit_from_linux_code`: zero for a key without a bit. -/
def buttonBitFromLinuxCode (code : UInt16) : UInt16 :=
  (buttonTable.lookup code).getD 0

/-- `buttons |= bit` for a press, `buttons &= ~bit` for a release.  Any value
but zero is a press. -/
def applyButton (buttons bit : UInt16) (value : Int32) : UInt16 :=
  if value != 0 then buttons ||| bit else buttons &&& ~~~bit

/-! ## The frame accumulator -/

@[ext] structure FrameAccumulator where
  dx : Int64
  dy : Int64
  wheel : Int64
  hwheel : Int64
  buttons : UInt16
  flags : UInt16
  wheelHiresSeen : Bool
  hwheelHiresSeen : Bool
  timestampNs : UInt64
deriving DecidableEq, Repr

/-- The accumulator of a `memset` to zero that keeps the buttons. -/
def cleanFrame (buttons : UInt16) : FrameAccumulator :=
  ⟨0, 0, 0, 0, buttons, 0, false, false, 0⟩

/-- The `EV_REL` branch.  The first hi-res event of a wheel axis takes back
what the plain ones have added, and plain ones behind it are ignored. -/
def accumulateRel (f : FrameAccumulator) (code : UInt16) (value : Int32) :
    FrameAccumulator :=
  if code == REL_X then { f with dx := f.dx + value.toInt64 }
  else if code == REL_Y then { f with dy := f.dy + value.toInt64 }
  else if code == REL_WHEEL then
    if f.wheelHiresSeen then f else { f with wheel := f.wheel + value.toInt64 }
  else if code == REL_WHEEL_HI_RES then { f with
    wheel := (if f.wheelHiresSeen then f.wheel else 0) + value.toInt64
    wheelHiresSeen := true }
  else if code == REL_HWHEEL then
    if f.hwheelHiresSeen then f else { f with hwheel := f.hwheel + value.toInt64 }
  else if code == REL_HWHEEL_HI_RES then { f with
    hwheel := (if f.hwheelHiresSeen then f.hwheel else 0) + value.toInt64
    hwheelHiresSeen := true }
  else f

/-- The `EV_KEY` branch: a mask that changes is a transition. -/
def accumulateKey (f : FrameAccumulator) (code : UInt16) (value : Int32) :
    FrameAccumulator :=
  let bit := buttonBitFromLinuxCode code
  if bit == 0 then f
  else
    let buttons := applyButton f.buttons bit value
    { f with
      buttons := buttons
      flags := if buttons != f.buttons then f.flags ||| HFIOR_RECORD_BUTTON
        else f.flags }

/-- The time of an event, unless it is zero. -/
def stampFrame (f : FrameAccumulator) (timestampNs : UInt64) : FrameAccumulator :=
  if timestampNs != 0 then { f with timestampNs := timestampNs } else f

/-- What `process_input_event` does to the accumulator, up to the call of
`complete_frame` for a `SYN_REPORT`. -/
def accumulate (f : FrameAccumulator) (e : InputEvent) : FrameAccumulator :=
  let f := stampFrame f (timevalToNs e.time)
  if e.type == EV_REL then accumulateRel f e.code e.value
  else if e.type == EV_KEY then accumulateKey f e.code e.value
  else if e.isDropped then { f with flags := f.flags ||| HFIOR_RECORD_SYN_DROPPED }
  else f

/-! ## The record of a frame -/

/-- `clamp_i64`. -/
def clampI64 (value minimum maximum : Int64) : Int64 :=
  if value < minimum then minimum
  else if value > maximum then maximum
  else value

/-- `(int32_t)clamp_i64(value, INT32_MIN, INT32_MAX)`. -/
def clampToInt32 (value : Int64) : Int32 :=
  (clampI64 value (-2147483648) 2147483647).toInt32

/-- `(int16_t)clamp_i64(value, INT16_MIN, INT16_MAX)`. -/
def clampToInt16 (value : Int64) : Int16 :=
  (clampI64 value (-32768) 32767).toInt16

/-- The MOTION and WHEEL flags, from the stored displacement. -/
def flagMotion (record : Record) : Record :=
  { record with flags := record.flags |||
      (if record.dx != 0 || record.dy != 0 then HFIOR_RECORD_MOTION else 0) |||
      (if record.wheel != 0 || record.hwheel != 0 then HFIOR_RECORD_WHEEL else 0) }

/-- The record that `complete_frame` hands to `publish_record`, where `nowNs`
is the clock behind a zero timestamp. -/
def frameRecord (f : FrameAccumulator) (timestampNs nowNs : UInt64) : Record :=
  flagMotion {
    sequence := 0
    timestampNs := if timestampNs != 0 then timestampNs else nowNs
    dx := clampToInt32 f.dx
    dy := clampToInt32 f.dy
    wheel := clampToInt16 f.wheel
    hwheel := clampToInt16 f.hwheel
    buttons := f.buttons
    flags := f.flags }

end Hfior
