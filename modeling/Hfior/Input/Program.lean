import Hfior.Bridge.PollTimeout
import Hfior.Input.ButtonFlag
import Hfior.Input.Schedule

/-!
# The program of the bridge

`main` behind the hello message: the start barrier, the main loop with its
clock, its poll results and its reconnect delay, the terminal record, and
`wait_for_terminal_ack`.  A step of `programMachine` is one round of one of
these loops, or a signal.

The descriptor of the timer is there for a synthetic source, as
`setup_synthetic_source` leaves it.  A `fatal` ends the process, and the
state behind it is the one in front of the call that failed.

The ghost fields are the attempts of all publications, and the times at which
the device was lost and opened.
-/

namespace Hfior

/-! ## Options -/

/-- The options of `main` that its checks and its loop read. -/
structure BridgeOptions where
  config : BridgeConfig
  syntheticRateHz : UInt32
  buttonEvery : UInt32
  publishTimestamps : Bool
  capacity : UInt32
  reconnectMs : UInt32
  duration : DurationOption
deriving DecidableEq

/-- The checks of `main` behind the option parser. -/
def BridgeOptions.check (o : BridgeOptions) : Except String Unit :=
  if o.config.devicePath == (o.syntheticRateHz != 0) then
    .error "choose exactly one of --device or --synthetic-rate"
  else if !isPowerOfTwoU32 o.capacity || o.capacity < 64 then
    .error "capacity must be a power of two and at least 64"
  else if o.syntheticRateHz > 1000000 then
    .error "synthetic rate is unreasonably high"
  else .ok ()

/-- Options that `main` goes on with. -/
structure AdmittedOptions extends BridgeOptions where
  admitted : toBridgeOptions.check = .ok ()

/-- A bridge without a device has an admitted rate. -/
theorem AdmittedOptions.rateAdmitted (o : AdmittedOptions) (h : o.config.devicePath = false) :
    rateAdmitted o.syntheticRateHz = true := by
  have hcheck := o.admitted
  unfold BridgeOptions.check at hcheck
  split at hcheck
  · cases hcheck
  rename_i hone
  split at hcheck
  · cases hcheck
  split at hcheck
  · cases hcheck
  rename_i hrate
  have hsome : o.syntheticRateHz ≠ 0 := by
    intro hzero
    simp [h, hzero] at hone
  have hle : o.syntheticRateHz ≤ 1000000 := UInt32.not_lt.1 hrate
  simp [Hfior.rateAdmitted, hsome, hle]

/-- The rate of a synthetic source. -/
def AdmittedOptions.rate (o : AdmittedOptions) (h : o.config.devicePath = false) :
    SyntheticRate :=
  ⟨o.syntheticRateHz, o.rateAdmitted h⟩

/-- `reconnect_ms`, in nanoseconds. -/
def BridgeOptions.reconnectNs (o : BridgeOptions) : UInt64 := o.reconnectMs.toUInt64 * 1000000

/-! ## State -/

/-- Where `main` is. -/
inductive ProgramStage where
  /-- In `wait_for_start_barrier`. -/
  | barrier (modeReceived : Bool)
  | looping
  /-- Behind a `break` of the main loop. -/
  | leaving
  /-- In `wait_for_terminal_ack`. -/
  | waiting (deadlineNs : UInt64)
  | finished
  /-- Behind a `fatal`. -/
  | failed
deriving DecidableEq, Repr

/-- What becomes of the device, and when. -/
inductive DeviceEvent where
  | tried (nowNs : UInt64) (opened : Bool)
  | lost (nowNs : UInt64)
deriving DecidableEq, Repr

structure Program where
  bridge : InputBridge
  attempts : List Attempt
  /-- The global `stop_requested`, as far as a signal or the main loop sets
  it.  What the functions of the bridge set is in the bridge. -/
  stopFlag : Bool
  stopDeadlineNs : UInt64
  nextReconnectNs : UInt64
  stage : ProgramStage
  deviceLog : List DeviceEvent

/-- `stop_requested`. -/
def Program.stopRequested (p : Program) : Bool := p.stopFlag || p.bridge.stopRequested

/-- `main` in front of the start barrier. -/
def Program.boot (o : AdmittedOptions) (ring : RingHeader) (clientFd inputFd : Int32) :
    Program where
  bridge := .boot (.boot o.config ring clientFd inputFd)
    ⟨o.buttonEvery, o.publishTimestamps, 0, 0, 0⟩
  attempts := []
  stopFlag := false
  stopDeadlineNs := 0
  nextReconnectNs := 0
  stage := .barrier false
  deviceLog := []

/-! ## The start barrier -/

/-- What `poll` returns, without the `revents`. -/
inductive PollResult where
  | interrupted
  | failed
  | timedOut
  | ready
deriving DecidableEq, Repr

/-- A round of `wait_for_start_barrier`. -/
structure StartRound where
  poll : PollResult
  hungUp : Bool
  received : Except Errno (List UInt8)
  /-- The clock and the `timerfd_settime` of `arm_synthetic_source`. -/
  armNs : UInt64
  settime : IoResult
  /-- The reads of `discard_pending_input`, and its `EVIOCGKEY`. -/
  reads : List DeviceRead
  keys : Option KeyBitmap
  startedNs : UInt64
  send : IoResult

/-- The start of the source, for a START. -/
def armSource (o : AdmittedOptions) (b : InputBridge) (r : StartRound) :
    Int32 × InputBridge :=
  if h : o.config.devicePath = false then
    armSyntheticSource b (o.rate h) r.armNs r.settime
  else discardPendingInput b r.reads r.keys

namespace Program

variable (p : Program)

/-- A round behind its poll. -/
def barrierReadable (o : AdmittedOptions) (ops : DoubleOps) (modeReceived : Bool)
    (r : StartRound) : Program :=
  let armed := armSource o p.bridge r
  match barrierMessage p.bridge.toBridge modeReceived r.received (armed.1 == 0) r.send with
  | .waiting b mode =>
    { p with bridge := { p.bridge with toBridge := b }, stage := .barrier mode }
  | .failed => { p with stage := .failed }
  | .started b _ =>
    { p with
      bridge := { armed.2 with toBridge := { b with sourceReady := armed.2.sourceReady } }
      stopDeadlineNs := Hfior.stopDeadlineNs ops o.duration r.startedNs
      stage := .looping }
  | .stopped b => { p with bridge := { p.bridge with toBridge := b }, stage := .looping }

def barrierRound (o : AdmittedOptions) (ops : DoubleOps) (modeReceived : Bool)
    (r : StartRound) : Program :=
  match r.poll with
  | .interrupted | .timedOut => p
  | .failed => { p with stage := .failed }
  | .ready =>
    if r.hungUp then { p with stage := .failed }
    else p.barrierReadable o ops modeReceived r

end Program

/-! ## The main loop -/

/-- What one pass of the main loop meets. -/
structure PassEnv where
  nowNs : UInt64
  /-- The `open` of `try_reconnect_device`. -/
  openFd : Int32
  opened : DeviceStateEnv
  poll : PollResult
  sourceIn : Bool
  sourceHangup : Bool
  /-- The read of the timer: its expirations, or too few bytes. -/
  timer : Except Errno (Option UInt64)
  clock : Nat → UInt64
  frames : Nat → FrameEnv
  reads : List DeviceRead
  gone : DeviceStateEnv
  goneNs : UInt64
  hungUp : DeviceStateEnv
  hungUpNs : UInt64
  clientIn : Bool
  clientHangup : Bool
  received : Except Errno (List UInt8)
  controlNs : UInt64
  controlUrgent : IoResult

namespace Program

variable (p : Program) (o : AdmittedOptions) (env : PassEnv)

/-- The device is lost, and the next attempt to open it is due. -/
def reconnectDue : Bool :=
  p.bridge.config.devicePath && p.bridge.inputFd < 0 && env.nowNs ≥ p.nextReconnectNs

/-- The attempt to open a lost device. -/
def reopen : Program :=
  if p.reconnectDue env then
    let (rc, b, _) :=
      tryReconnectDevice p.bridge.toBridge env.openFd env.opened.send env.opened.urgent
    { p with
      bridge := { p.bridge with toBridge := b }
      nextReconnectNs := if rc == 0 then p.nextReconnectNs else env.nowNs + o.reconnectNs
      deviceLog := p.deviceLog ++ [.tried env.nowNs (rc == 0)] }
  else p

/-- A `mark_device_gone`, with the delay behind it. -/
def lose (state : DeviceStateEnv) (nowNs : UInt64) : Program :=
  { p with
    bridge := p.bridge.markGone state
    nextReconnectNs := nowNs + o.reconnectNs
    deviceLog := p.deviceLog ++ [.lost nowNs] }

/-- The POLLIN branch of a device. -/
def readDevice : Program :=
  let (rc, ps, b) := drainInputDevice p.bridge env.reads
  let p := { p with bridge := b, attempts := p.attempts ++ attemptsOf ps }
  if rc != 0 then p.lose o env.gone env.goneNs else p

/-- Both branches of a device whose descriptor has been polled. -/
def serveDevice : Program :=
  if p.bridge.inputFd < 0 then p
  else
    let p := if env.sourceIn then p.readDevice o env else p
    if env.sourceHangup && p.bridge.inputFd ≥ 0 then p.lose o env.hungUp env.hungUpNs else p

/-- The POLLIN branch of a synthetic source.  A read that fails is fatal. -/
def readTimer : Option Program :=
  match env.timer with
  | .ok (some expirations) =>
    let (ps, b) := emitSynthetic p.bridge expirations env.clock env.frames
    some { p with bridge := b, attempts := p.attempts ++ attemptsOf ps }
  | .ok none | .error .EAGAIN | .error .EINTR => some p
  | .error _ => none

/-- Both branches of a synthetic source. -/
def serveTimer : Option Program :=
  let served := if env.sourceIn then p.readTimer env else some p
  served.map fun p => if env.sourceHangup then { p with stopFlag := true } else p

def serveSource : Option Program :=
  if p.bridge.config.devicePath then some (p.serveDevice o env) else p.serveTimer env

/-- Both branches of the client. -/
def serveClient : Program :=
  let result := handleControlMessage p.bridge.toBridge env.received env.controlNs
    env.controlUrgent
  let p := if env.clientIn then
      { p with bridge := { p.bridge with toBridge := result.bridge } } else p
  if env.clientIn && result.rc != 0 || env.clientHangup then { p with stage := .leaving }
  else p

/-- One pass of the main loop. -/
def pass : Program :=
  if deadlineReached p.stopDeadlineNs env.nowNs then { p with stage := .leaving }
  else
    let p := p.reopen o env
    match env.poll with
    | .interrupted | .timedOut => p
    | .failed => { p with stage := .failed }
    | .ready =>
      match p.serveSource o env with
      | none => { p with stage := .failed }
      | some p => p.serveClient env

end Program

/-! ## The end -/

/-- What the code behind the main loop meets up to `wait_for_terminal_ack`. -/
structure TerminalEnv where
  nowNs : UInt64
  publish : PublishEnv
  urgent : IoResult
  /-- The clock of the deadline. -/
  waitNs : UInt64

/-- A round of `wait_for_terminal_ack`. -/
structure AckRound where
  nowNs : UInt64
  poll : PollResult
  readable : Bool
  hungUp : Bool
  received : Except Errno (List UInt8)
  controlNs : UInt64
  urgent : IoResult

namespace Program

variable (p : Program)

/-- The loop is over: a `break`, or a stop at its head. -/
def loopOver : Bool :=
  match p.stage with
  | .leaving => true
  | .barrier _ | .looping => p.stopRequested
  | _ => false

/-- The terminal record. -/
def terminate (env : TerminalEnv) : Program :=
  let (publication, b) := publishTerminal p.bridge env.nowNs env.publish env.urgent
  { p with
    bridge := b
    attempts := p.attempts ++ attemptsOf [publication]
    stage := .waiting (env.waitNs + 100000000) }

def ackRound (deadlineNs : UInt64) (r : AckRound) : Program :=
  if p.bridge.ring.consumer.tail ≥ p.bridge.ring.producer.head || r.nowNs ≥ deadlineNs then
    { p with stage := .finished }
  else match r.poll with
    | .interrupted | .timedOut => p
    | .failed => { p with stage := .finished }
    | .ready =>
      let p := if r.readable then
          { p with bridge := { p.bridge with toBridge :=
            (handleControlMessage p.bridge.toBridge r.received r.controlNs r.urgent).bridge } }
        else p
      if r.hungUp then { p with stage := .finished } else p

end Program

/-! ## The machine -/

inductive ProgramStep where
  | signal
  | barrier (round : StartRound)
  | pass (env : PassEnv)
  | terminal (env : TerminalEnv)
  | ack (round : AckRound)

/-- `main`, round by round. -/
def programMachine (o : AdmittedOptions) (ops : DoubleOps) : Machine Program ProgramStep where
  step p
    | .signal => some { p with stopFlag := true }
    | .barrier round =>
      match p.stage with
      | .barrier modeReceived =>
        if p.stopRequested then none else some (p.barrierRound o ops modeReceived round)
      | _ => none
    | .pass env =>
      if p.stage = .looping ∧ p.stopRequested = false then some (p.pass o env) else none
    | .terminal env => if p.loopOver then some (p.terminate env) else none
    | .ack round =>
      match p.stage with
      | .waiting deadlineNs => some (p.ackRound deadlineNs round)
      | _ => none

end Hfior
