import Hfior.Bridge.Barrier
import Hfior.Input.Bridge
import Hfior.Library.Machine

/-!
# The main loop of the bridge

A `MainCall` is what the main loop does between two polls: it serves its
source, it handles a datagram, it tries to reconnect, or it publishes the
terminal record behind the loop.  The start barrier and the
`discard_pending_input` at its end are calls, too.

`mainMachine` runs the calls in any order, under the tests that the loop
makes: a device is served while it is open, and a reconnect is tried while
it is not.  Its ghost field lists the attempts of all publications.
-/

namespace Hfior

/-! ## The calls -/

/-- What a `send_device_state` meets. -/
structure DeviceStateEnv where
  send : IoResult
  urgent : IoResult
deriving DecidableEq, Repr

/-- `mark_device_gone` on the bridge with its input side. -/
def InputBridge.markGone (b : InputBridge) (env : DeviceStateEnv) : InputBridge :=
  { b with toBridge := (markDeviceGone b.toBridge env.send env.urgent).1 }

/-- The POLLIN branch of a device: drain it, or mark it gone. -/
def serveDevice (b : InputBridge) (reads : List DeviceRead) (env : DeviceStateEnv) :
    List Publication × InputBridge :=
  let (rc, ps, b) := drainInputDevice b reads
  (ps, if rc != 0 then b.markGone env else b)

/-- The branch of POLLERR, POLLHUP and POLLNVAL of a device.  It may come
behind the POLLIN branch of the same poll. -/
def hangupDevice (b : InputBridge) (env : DeviceStateEnv) : InputBridge :=
  if b.config.devicePath && b.inputFd ≥ 0 then b.markGone env else b

/-- The record behind the main loop. -/
def terminalRecord (b : InputBridge) (nowNs : UInt64) : Record where
  sequence := 0
  timestampNs := nowNs
  dx := 0
  dy := 0
  wheel := 0
  hwheel := 0
  buttons := b.frame.buttons
  flags := HFIOR_RECORD_TERMINATE

/-- The terminal record, and the eventfd write behind it. -/
def publishTerminal (b : InputBridge) (nowNs : UInt64) (env : PublishEnv)
    (urgent : IoResult) : Publication × InputBridge :=
  let (p, b) := b.publish env (terminalRecord b nowNs)
  (p, { b with toBridge := writeUrgent b.toBridge urgent })

/-- `try_reconnect_device` on the bridge with its input side. -/
def InputBridge.reconnect (b : InputBridge) (fd : Int32) (env : DeviceStateEnv) :
    InputBridge :=
  { b with toBridge := (tryReconnectDevice b.toBridge fd env.send env.urgent).2.1 }

/-- A call, with all that the clocks and the system calls return. -/
inductive MainCall where
  /-- A datagram of the start barrier. -/
  | barrier (modeReceived : Bool) (received : Except Errno (List UInt8))
      (armed : Bool) (send : IoResult)
  /-- `discard_pending_input`, at the end of the barrier. -/
  | discard (reads : List DeviceRead) (keys : Option KeyBitmap)
  /-- A poll of the device with its POLLIN branch, if `reads` is there, and
  its POLLHUP branch. -/
  | device (reads : Option (List DeviceRead)) (hangup : Bool)
      (gone hungUp : DeviceStateEnv)
  /-- An expired timer of the synthetic source. -/
  | synthetic (expirations : UInt64) (clock : Nat → UInt64) (env : Nat → FrameEnv)
  | control (received : Except Errno (List UInt8)) (nowNs : UInt64) (urgent : IoResult)
  | reconnect (fd : Int32) (env : DeviceStateEnv)
  | terminal (nowNs : UInt64) (env : PublishEnv) (urgent : IoResult)

/-- The publications and the effect of a call. -/
def InputBridge.call (b : InputBridge) : MainCall → List Publication × InputBridge
  | .barrier modeReceived received armed send => ([], { b with
      toBridge := (barrierMessage b.toBridge modeReceived received armed send).bridge
        b.toBridge })
  | .discard reads keys => ([], (discardPendingInput b reads keys).2)
  | .device reads hangup gone hungUp =>
    let served := match reads with
      | none => ([], b)
      | some reads => serveDevice b reads gone
    (served.1, if hangup then hangupDevice served.2 hungUp else served.2)
  | .synthetic expirations clock env => emitSynthetic b expirations clock env
  | .control received nowNs urgent => ([], { b with
      toBridge := (handleControlMessage b.toBridge received nowNs urgent).bridge })
  | .reconnect fd env => ([], b.reconnect fd env)
  | .terminal nowNs env urgent =>
    let (p, b) := publishTerminal b nowNs env urgent
    ([p], b)

/-- The tests of the main loop: the descriptor of an open device is polled,
and a lost device is opened again. -/
def InputBridge.ready (b : InputBridge) : MainCall → Bool
  | .device _ _ _ _ => b.config.devicePath && b.inputFd ≥ 0
  | .synthetic _ _ _ => !b.config.devicePath
  | .reconnect _ _ => b.config.devicePath && b.inputFd < 0
  | _ => true

/-! ## The machine -/

/-- The bridge, and all its publication attempts. -/
structure Running where
  bridge : InputBridge
  attempts : List Attempt

/-- The attempts of some publications. -/
def attemptsOf (ps : List Publication) : List Attempt :=
  ps.map Publication.attempt

/-- The bridge under its main loop. -/
def mainMachine : Machine Running MainCall where
  step s call :=
    if s.bridge.ready call then some
      { bridge := (s.bridge.call call).2
        attempts := s.attempts ++ attemptsOf (s.bridge.call call).1 }
    else none

theorem mainMachine_step {s t : Running} {call : MainCall} :
    mainMachine.step s call = some t ↔ s.bridge.ready call = true ∧
      t = { bridge := (s.bridge.call call).2
            attempts := s.attempts ++ attemptsOf (s.bridge.call call).1 } := by
  simp only [mainMachine]
  split
  · rename_i hready
    simp only [Option.some.injEq, hready, true_and]
    exact eq_comm
  · rename_i hready
    simp [hready]

/-! ## What publications keep -/

/-- An event publishes nothing, or one record. -/
theorem processInputEvent_cases (b : InputBridge) (reading : Reading) :
    ((processInputEvent b reading).1 = none ∧
      (processInputEvent b reading).2.toBridge = b.toBridge) ∨
    ∃ env record,
      (processInputEvent b reading).1 = some (publishRecord b.toBridge env record) ∧
      (processInputEvent b reading).2.toBridge = (publishRecord b.toBridge env record).bridge := by
  unfold processInputEvent
  dsimp only
  split
  · exact .inr ⟨_, _, rfl, rfl⟩
  · exact .inl ⟨rfl, rfl⟩

section
variable {P : Bridge → List Attempt → Prop} {bound : Nat}
  (hpublish : ∀ b attempts env record, P b attempts → attempts.length < bound →
    P (publishRecord b env record).bridge
      (attempts ++ [(publishRecord b env record).attempt]))
  {b : InputBridge} {attempts : List Attempt}
include hpublish

/-- What every publication keeps, a list of events keeps. -/
theorem processInput_keeps (h : P b.toBridge attempts) (readings : List Reading)
    (hlt : (attempts ++ attemptsOf (processInput b readings).1).length ≤ bound) :
    P (processInput b readings).2.toBridge
      (attempts ++ attemptsOf (processInput b readings).1) := by
  induction readings generalizing b attempts with
  | nil => simpa [processInput, attemptsOf] using h
  | cons reading readings ih =>
    simp only [processInput] at hlt ⊢
    rcases processInputEvent_cases b reading with ⟨hnone, hsame⟩ | ⟨env, record, hsome, hnext⟩
    · simp only [hnone, Option.toList_none, List.nil_append] at hlt ⊢
      exact ih (hsame ▸ h) hlt
    · simp only [hsome, Option.toList_some, attemptsOf, List.singleton_append,
        List.map_cons] at hlt ⊢
      rw [List.append_cons] at hlt ⊢
      refine ih ?_ hlt
      rw [hnext]
      apply hpublish _ _ _ _ h
      simp only [List.length_append, List.length_singleton] at hlt
      omega

theorem drainInputDevice_keeps (h : P b.toBridge attempts) (reads : List DeviceRead)
    (hlt : (attempts ++ attemptsOf (drainInputDevice b reads).2.1).length ≤ bound) :
    P (drainInputDevice b reads).2.2.toBridge
      (attempts ++ attemptsOf (drainInputDevice b reads).2.1) := by
  have hnone : P b.toBridge (attempts ++ attemptsOf []) := by
    simpa [attemptsOf] using h
  induction reads generalizing b attempts with
  | nil => exact hnone
  | cons read reads ih =>
    cases read with
    | events readings =>
      simp only [drainInputDevice, attemptsOf, List.map_append, ← List.append_assoc] at hlt ⊢
      have hevents := processInput_keeps hpublish h readings (by
        simp only [attemptsOf, List.length_append] at hlt ⊢
        omega)
      exact ih hevents hlt (by simpa [attemptsOf] using hevents)
    | torn => exact hnone
    | eof => exact hnone
    | failed errno =>
      cases errno with
      | EINTR => exact ih h hlt hnone
      | _ => exact hnone

theorem emitRounds_keeps (h : P b.toBridge attempts) (clock : Nat → UInt64)
    (env : Nat → FrameEnv) (n : Nat)
    (hlt : (attempts ++ attemptsOf (emitRounds b clock env n).1).length ≤ bound) :
    P (emitRounds b clock env n).2.toBridge
      (attempts ++ attemptsOf (emitRounds b clock env n).1) := by
  induction n with
  | zero => simpa [emitRounds, attemptsOf] using h
  | succ n ih =>
    simp only [emitRounds, attemptsOf, List.map_append, ← List.append_assoc,
      List.map_singleton] at hlt ⊢
    have hbefore := ih (by
      simp only [attemptsOf, List.length_append, List.length_singleton] at hlt ⊢
      omega)
    refine hpublish _ _ _ _ hbefore ?_
    simp only [List.length_append, List.length_singleton] at hlt ⊢
    omega

end

end Hfior
