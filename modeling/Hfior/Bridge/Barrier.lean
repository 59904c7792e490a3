import Hfior.Bridge.Control

/-!
# `wait_for_start_barrier`

What the loop of the start barrier does with one datagram.  The blocking
`recv`, the arming of the source (`arm_synthetic_source`, or
`discard_pending_input` for a device) and the send of the answer are
arguments.
-/

namespace Hfior

/-- Where the loop is behind one datagram: it goes on, it returns -1, it
returns 0 with the source armed and STARTED sent, or it returns 0 because of
a STOP. -/
inductive BarrierResult where
  | waiting (bridge : Bridge) (modeReceived : Bool)
  | failed
  | started (bridge : Bridge) (reply : MessageHeader)
  | stopped (bridge : Bridge)

/-- The header of STARTED. -/
def startedMessage : MessageHeader :=
  ⟨HFIOR_MSG_STARTED, UInt32.ofNat sizeofMessageHeader⟩

/-- The START branch. -/
def handleStart (b : Bridge) (modeReceived armed : Bool) (send : IoResult) :
    BarrierResult :=
  if !modeReceived || !armed then .failed
  else match send with
    | .failed _ => .failed
    | .done => .started b startedMessage

/-- The dispatch of the barrier on a well-formed buffer. -/
def dispatchBarrier (b : Bridge) (modeReceived : Bool) (buffer : List UInt8)
    (armed : Bool) (send : IoResult) : BarrierResult :=
  let header := messageHeader buffer
  if header.type == HFIOR_MSG_SET_MODE &&
      buffer.length == sizeofSetModeMessage then
    if modeValid (setModeMessage buffer).mode then
      .waiting { b with mode := (setModeMessage buffer).mode } true
    else .failed
  else if header.type == HFIOR_MSG_START then handleStart b modeReceived armed send
  else if header.type == HFIOR_MSG_STOP then .stopped (requestStop b)
  else .waiting b modeReceived

/-- One round of `wait_for_start_barrier`. -/
def barrierMessage (b : Bridge) (modeReceived : Bool)
    (received : Except Errno (List UInt8)) (armed : Bool) (send : IoResult) :
    BarrierResult :=
  match received with
  | .error _ => .failed
  | .ok datagram =>
    let buffer := datagram.take controlBufferSize
    if buffer.length == 0 then .failed
    else if !wellFormed buffer then .waiting (countMalformedMessage b) modeReceived
    else dispatchBarrier (countControlMessage b) modeReceived buffer armed send

/-- The bridge behind the round; a failed round leaves it as it was. -/
def BarrierResult.bridge (b : Bridge) : BarrierResult → Bridge
  | .waiting b' _ | .started b' _ | .stopped b' => b'
  | .failed => b

/-- A round does not touch the ring. -/
theorem barrierMessage_ring (b : Bridge) (modeReceived : Bool)
    (received : Except Errno (List UInt8)) (armed : Bool) (send : IoResult) :
    ((barrierMessage b modeReceived received armed send).bridge b).ring = b.ring := by
  cases received with
  | error errno => rfl
  | ok datagram =>
    simp only [barrierMessage]
    split
    · rfl
    split
    · rfl
    simp only [dispatchBarrier, handleStart]
    split
    · split <;> rfl
    split
    · split
      · rfl
      · cases send <;> rfl
    split <;> rfl

section
variable (b : Bridge) (modeReceived armed : Bool) (send : IoResult)

/-- A valid SET_MODE is taken. -/
theorem barrierMessage_setMode {m : SetModeMessage} (hmode : modeValid m.mode = true) :
    barrierMessage b modeReceived (.ok m.bytes) armed send =
      .waiting { countControlMessage b with mode := m.mode } true := by
  have hlength := m.bytes_length
  have htake : m.bytes.take controlBufferSize = m.bytes :=
    List.take_of_length_le (by rw [hlength]; decide)
  have hwell : wellFormed m.bytes = true := by
    rw [wellFormed, hlength, messageHeader_setModeBytes]
    rfl
  simp only [barrierMessage, htake, hlength, hwell, dispatchBarrier,
    messageHeader_setModeBytes, setModeMessage_bytes, hmode]
  rfl

/-- Behind a SET_MODE a START ends the barrier. -/
theorem barrierMessage_start :
    barrierMessage b true (.ok (headerBytes HFIOR_MSG_START)) true .done =
      .started (countControlMessage b) startedMessage := by
  have hlength : (headerBytes HFIOR_MSG_START).length = sizeofMessageHeader := by
    simp [headerBytes, sizeofMessageHeader]
  have htake : (headerBytes HFIOR_MSG_START).take controlBufferSize =
      headerBytes HFIOR_MSG_START :=
    List.take_of_length_le (by rw [hlength]; decide)
  have hwell : wellFormed (headerBytes HFIOR_MSG_START) = true := by
    rw [wellFormed, hlength, messageHeader_headerBytes]
    rfl
  simp only [barrierMessage, htake, hlength, hwell, dispatchBarrier,
    messageHeader_headerBytes]
  rfl

end

end Hfior
