import Hfior.Input.Calls

/-!
# The pace of the reconnects

The main loop opens a lost device again, and after every failure it waits for
`reconnect_ms`.  `Paced` says which event of the device may follow which: a
loss is followed by tries, each at least the delay behind the event before it,
and a try that succeeds is followed by the next loss.

There are three groups.  `SameSource` is what almost every operation of the
program keeps, `PacedInv` is the invariant of the two that are left, and
`reconnects_paced` is the run.
-/

namespace Hfior

/-! ## The events of the device -/

def DeviceEvent.timeNs : DeviceEvent → UInt64
  | .tried nowNs _ | .lost nowNs => nowNs

/-- The device is open behind the event. -/
def DeviceEvent.isOpening : DeviceEvent → Bool
  | .tried _ opened => opened
  | .lost _ => false

def DeviceEvent.isLoss : DeviceEvent → Bool
  | .tried _ _ => false
  | .lost _ => true

/-- The events that may follow each other: a loss behind an opening, and
otherwise a try behind the delay. -/
def Paced (delayNs : Nat) (e e' : DeviceEvent) : Prop :=
  if e.isOpening then e'.isLoss = true
  else e'.isLoss = false ∧ e.timeNs.toNat + delayNs ≤ e'.timeNs.toNat

/-! ## What the other operations keep -/

/-- The bridge has the same device, in the same state and with the same
counters. -/
structure SameDevice (b b' : Bridge) : Prop where
  config : b'.config = b.config
  inputFd : b'.inputFd = b.inputFd
  disconnects : b'.stats.deviceDisconnects = b.stats.deviceDisconnects
  reconnects : b'.stats.deviceReconnects = b.stats.deviceReconnects

namespace SameDevice

variable {b b' b'' : Bridge}

theorem refl (b : Bridge) : SameDevice b b := ⟨rfl, rfl, rfl, rfl⟩

theorem trans (h : SameDevice b b') (h' : SameDevice b' b'') : SameDevice b b'' :=
  ⟨h'.config.trans h.config, h'.inputFd.trans h.inputFd, h'.disconnects.trans h.disconnects,
    h'.reconnects.trans h.reconnects⟩

theorem writeUrgent (b : Bridge) (urgent : IoResult) : SameDevice b (writeUrgent b urgent) := by
  cases urgent <;> exact ⟨rfl, rfl, rfl, rfl⟩

theorem sendDeviceState (b : Bridge) (flags : UInt16) (send urgent : IoResult) :
    SameDevice b (sendDeviceState b flags send urgent).1 := by
  unfold Hfior.sendDeviceState
  split
  · exact refl b
  · exact writeUrgent b urgent

theorem attempt (b : Bridge) (beginNs endNs : UInt64) (record : Record) :
    SameDevice b (publishAttempt b beginNs endNs record).2 := by
  cases hpublished : (publishAttempt b beginNs endNs record).1.published with
  | true =>
    obtain ⟨trace, hframe⟩ := publishAttempt_of_published b beginNs endNs record hpublished
    rw [hframe]
    exact ⟨rfl, rfl, rfl, rfl⟩
  | false =>
    obtain ⟨trace, hframe⟩ := publishAttempt_of_dropped b beginNs endNs record hpublished
    rw [hframe]
    exact ⟨rfl, rfl, rfl, rfl⟩

theorem publish (b : Bridge) (env : PublishEnv) (record : Record) :
    SameDevice b (publishRecord b env record).bridge := by
  obtain ⟨sent, dropped, written, urgentFd, stop, hsent⟩ := announce_announced
    (publishAttempt b env.beginNs env.endNs record).2
    (publishAttempt b env.beginNs env.endNs record).1 env.send env.dropUrgent env.urgent
  simp only [publishRecord, hsent]
  exact (attempt b env.beginNs env.endNs record).trans ⟨rfl, rfl, rfl, rfl⟩

theorem barrier (b : Bridge) (modeReceived armed : Bool) (received : Except Errno (List UInt8))
    (send : IoResult) :
    SameDevice b ((barrierMessage b modeReceived received armed send).bridge b) := by
  unfold barrierMessage dispatchBarrier handleStart
  dsimp only
  repeat' split
  all_goals exact ⟨rfl, rfl, rfl, rfl⟩

theorem control (b : Bridge) (received : Except Errno (List UInt8)) (nowNs : UInt64)
    (urgent : IoResult) : SameDevice b (handleControlMessage b received nowNs urgent).bridge := by
  have hinvalid : SameDevice b (countInvalidAck (countControlMessage b)) := ⟨rfl, rfl, rfl, rfl⟩
  unfold handleControlMessage dispatchControl handleSetMode handleAck
  dsimp only
  repeat' split
  all_goals first
    | exact ⟨rfl, rfl, rfl, rfl⟩
    | exact hinvalid.trans (writeUrgent _ urgent)

theorem drain (b : InputBridge) (reads : List DeviceRead) :
    SameDevice b.toBridge (drainInputDevice b reads).2.2.toBridge :=
  drainInputDevice_keeps (P := fun c _ => SameDevice b.toBridge c)
    (fun c _ env record h _ => h.trans (publish c env record)) (refl _) reads
    (le_refl ([] ++ attemptsOf (drainInputDevice b reads).2.1).length)

theorem terminal (b : InputBridge) (nowNs : UInt64) (env : PublishEnv) (urgent : IoResult) :
    SameDevice b.toBridge (publishTerminal b nowNs env urgent).2.toBridge :=
  (publish b.toBridge env (terminalRecord b nowNs)).trans (writeUrgent _ urgent)

end SameDevice

/-- The program has the same device and the same times. -/
structure Program.SameSource (p q : Program) : Prop where
  device : SameDevice p.bridge.toBridge q.bridge.toBridge
  nextReconnectNs : q.nextReconnectNs = p.nextReconnectNs
  deviceLog : q.deviceLog = p.deviceLog

namespace Program

variable {p q : Program} {o : AdmittedOptions} {ops : DoubleOps} {env : PassEnv}

theorem sameSource_barrierRound (modeReceived : Bool) (r : StartRound) :
    p.SameSource (p.barrierRound o ops modeReceived r) := by
  have hround := SameDevice.barrier p.bridge.toBridge modeReceived
    ((armSource o p.bridge r).1 == 0) r.received r.send
  unfold barrierRound
  split
  · exact ⟨.refl _, rfl, rfl⟩
  · exact ⟨.refl _, rfl, rfl⟩
  · exact ⟨.refl _, rfl, rfl⟩
  split
  · exact ⟨.refl _, rfl, rfl⟩
  unfold barrierReadable
  dsimp only
  split
  · rename_i hresult
    rw [hresult] at hround
    exact ⟨hround, rfl, rfl⟩
  · exact ⟨.refl _, rfl, rfl⟩
  · rename_i hresult
    rw [hresult] at hround
    exact ⟨hround.trans ⟨rfl, rfl, rfl, rfl⟩, rfl, rfl⟩
  · rename_i hresult
    rw [hresult] at hround
    exact ⟨hround, rfl, rfl⟩

theorem sameSource_serveClient : p.SameSource (p.serveClient env) := by
  have hcontrol := SameDevice.control p.bridge.toBridge env.received env.controlNs
    env.controlUrgent
  unfold serveClient
  dsimp only
  split <;> split
  · exact ⟨hcontrol, rfl, rfl⟩
  · exact ⟨.refl _, rfl, rfl⟩
  · exact ⟨hcontrol, rfl, rfl⟩
  · exact ⟨.refl _, rfl, rfl⟩

theorem sameSource_terminate (env : TerminalEnv) : p.SameSource (p.terminate env) :=
  ⟨SameDevice.terminal p.bridge env.nowNs env.publish env.urgent, rfl, rfl⟩

theorem sameSource_ackRound (deadlineNs : UInt64) (r : AckRound) :
    p.SameSource (p.ackRound deadlineNs r) := by
  have hcontrol := SameDevice.control p.bridge.toBridge r.received r.controlNs r.urgent
  unfold ackRound
  split
  · exact ⟨.refl _, rfl, rfl⟩
  split
  · exact ⟨.refl _, rfl, rfl⟩
  · exact ⟨.refl _, rfl, rfl⟩
  · exact ⟨.refl _, rfl, rfl⟩
  · dsimp only
    split <;> split
    · exact ⟨hcontrol, rfl, rfl⟩
    · exact ⟨.refl _, rfl, rfl⟩
    · exact ⟨hcontrol, rfl, rfl⟩
    · exact ⟨.refl _, rfl, rfl⟩

end Program

/-! ## The invariant -/

/-- The state of the device behind its last event. -/
structure DeviceState (delayNs : UInt64) (inputFd : Int32) (nextReconnectNs : UInt64)
    (last : Option DeviceEvent) : Prop where
  opened : last.all (·.isOpening) = true → 0 ≤ inputFd
  closed : ∀ e ∈ last, e.isOpening = false →
    inputFd < 0 ∧ nextReconnectNs = e.timeNs + delayNs

/-- The events so far are paced, they begin with a loss, and the bridge counts
them. -/
structure PacedInv (o : AdmittedOptions) (p : Program) : Prop where
  config : p.bridge.config = o.config
  state : DeviceState o.reconnectNs p.bridge.inputFd p.nextReconnectNs p.deviceLog.getLast?
  first : ∀ e ∈ p.deviceLog.head?, e.isLoss = true
  paced : (∀ e ∈ p.deviceLog, e.timeNs.toNat < 2 ^ 63) →
    p.deviceLog.IsChain (Paced o.reconnectNs.toNat)
  disconnects : p.bridge.stats.deviceDisconnects =
    UInt64.ofNat (p.deviceLog.countP DeviceEvent.isLoss)
  reconnects : p.bridge.stats.deviceReconnects =
    UInt64.ofNat (p.deviceLog.countP DeviceEvent.isOpening)

/-- The delay is short. -/
theorem reconnectNs_lt (o : BridgeOptions) : o.reconnectNs.toNat < 2 ^ 63 := by
  have hms : o.reconnectMs.toUInt64.toNat < 2 ^ 32 := by
    rw [UInt32.toNat_toUInt64]
    exact o.reconnectMs.toNat_lt
  have hmul : o.reconnectNs.toNat = o.reconnectMs.toUInt64.toNat * 1000000 % 2 ^ 64 := by
    rw [BridgeOptions.reconnectNs, UInt64.toNat_mul]
    rfl
  rw [hmul, Nat.mod_eq_of_lt (by omega)]
  omega

namespace PacedInv

variable {o : AdmittedOptions} {p q : Program}

theorem sameSource (h : PacedInv o p) (hsame : p.SameSource q) : PacedInv o q where
  config := hsame.device.config.trans h.config
  state := by
    rw [hsame.device.inputFd, hsame.nextReconnectNs, hsame.deviceLog]
    exact h.state
  first := hsame.deviceLog ▸ h.first
  paced := hsame.deviceLog ▸ h.paced
  disconnects := by
    rw [hsame.device.disconnects, hsame.deviceLog]
    exact h.disconnects
  reconnects := by
    rw [hsame.device.reconnects, hsame.deviceLog]
    exact h.reconnects

/-- A device that is open has been opened last, or never lost. -/
theorem last_of_open (h : PacedInv o p) (hopen : 0 ≤ p.bridge.inputFd) :
    ∀ e ∈ p.deviceLog.getLast?, e.isOpening = true := by
  intro e he
  by_contra hclosed
  have hlost := (h.state.closed e he (Bool.not_eq_true _ ▸ hclosed)).1
  exact absurd hlost (Int32.not_lt.2 hopen)

/-- One event more, if it may follow the last one. -/
theorem paced_snoc (h : PacedInv o p) {e : DeviceEvent}
    (hlast : ∀ last ∈ p.deviceLog.getLast?, last.timeNs.toNat < 2 ^ 63 →
      Paced o.reconnectNs.toNat last e)
    (hsmall : ∀ e' ∈ p.deviceLog ++ [e], e'.timeNs.toNat < 2 ^ 63) :
    (p.deviceLog ++ [e]).IsChain (Paced o.reconnectNs.toNat) := by
  have hbefore : ∀ e' ∈ p.deviceLog, e'.timeNs.toNat < 2 ^ 63 :=
    fun e' he' => hsmall e' (List.mem_append_left _ he')
  rw [List.isChain_append]
  refine ⟨h.paced hbefore, .singleton _, ?_⟩
  intro last hmem e' he'
  obtain rfl := Option.some.inj he'
  exact hlast last hmem (hbefore last (List.mem_of_mem_getLast? hmem))

theorem first_snoc (h : PacedInv o p) {e : DeviceEvent}
    (hnil : p.deviceLog = [] → e.isLoss = true) :
    ∀ e' ∈ (p.deviceLog ++ [e]).head?, e'.isLoss = true := by
  intro e' he'
  cases hlog : p.deviceLog with
  | nil =>
    rw [hlog] at he'
    obtain rfl := Option.some.inj he'
    exact hnil hlog
  | cons first rest =>
    rw [hlog] at he'
    obtain rfl := Option.some.inj he'
    exact h.first _ (by rw [hlog]; rfl)

/-- An open device is lost. -/
theorem lose (h : PacedInv o p) (hopen : 0 ≤ p.bridge.inputFd) (state : DeviceStateEnv)
    (nowNs : UInt64) : PacedInv o (p.lose o state nowNs) := by
  have hsent := SameDevice.sendDeviceState (closeInputDevice p.bridge.toBridge)
    HFIOR_RECORD_DEVICE_GONE state.send state.urgent
  have hclosed : (closeInputDevice p.bridge.toBridge).inputFd = -1 := if_pos hopen
  constructor
  case config => exact hsent.config.trans h.config
  case state =>
    have hfd : (p.lose o state nowNs).bridge.inputFd = -1 := hsent.inputFd.trans hclosed
    have hlog : (p.lose o state nowNs).deviceLog.getLast? = some (.lost nowNs) :=
      List.getLast?_concat
    rw [hfd, hlog]
    refine ⟨fun hall => (by cases hall), ?_⟩
    intro e he hclosed
    obtain rfl := Option.some.inj he
    exact ⟨by decide, rfl⟩
  case first => exact h.first_snoc fun _ => rfl
  case paced =>
    refine h.paced_snoc ?_
    intro last hmem _
    rw [Paced, if_pos (h.last_of_open hopen last hmem)]
    rfl
  case disconnects =>
    have hcount : (p.lose o state nowNs).deviceLog.countP DeviceEvent.isLoss =
        p.deviceLog.countP DeviceEvent.isLoss + 1 := by
      simp [Program.lose, List.countP_append, DeviceEvent.isLoss]
    rw [hcount, UInt64.ofNat_add, ← h.disconnects]
    exact hsent.disconnects
  case reconnects =>
    have hcount : (p.lose o state nowNs).deviceLog.countP DeviceEvent.isOpening =
        p.deviceLog.countP DeviceEvent.isOpening := by
      simp [Program.lose, List.countP_append, DeviceEvent.isOpening]
    rw [hcount, ← h.reconnects]
    exact hsent.reconnects

theorem tryReconnect_failed {b : Bridge} (hdevice : b.config.devicePath = true) {fd : Int32}
    (hfd : fd < 0) (send urgent : IoResult) :
    tryReconnectDevice b fd send urgent = (-1, b, none) := by
  have hnot : ¬ (!b.config.devicePath) = true := by simp [hdevice]
  simp only [tryReconnectDevice, openInputDevice, if_neg hnot, if_pos hfd]
  rfl

theorem tryReconnect_opened {b : Bridge} (hdevice : b.config.devicePath = true) {fd : Int32}
    (hfd : ¬ fd < 0) (send urgent : IoResult) :
    (tryReconnectDevice b fd send urgent).1 = 0 ∧
      SameDevice (bumpGeneration { b with inputFd := fd, sourceReady := true })
        (tryReconnectDevice b fd send urgent).2.1 := by
  have hnot : ¬ (!b.config.devicePath) = true := by simp [hdevice]
  simp only [tryReconnectDevice, openInputDevice, if_neg hnot, if_neg hfd]
  exact ⟨rfl, SameDevice.sendDeviceState _ _ send urgent⟩

/-- A lost device is tried when it is due. -/
theorem reopen (h : PacedInv o p) (hdevice : o.config.devicePath = true) (env : PassEnv) :
    PacedInv o (p.reopen o env) := by
  unfold Program.reopen
  split
  · rename_i hdue
    simp only [Program.reconnectDue, Bool.and_eq_true, decide_eq_true_eq] at hdue
    obtain ⟨⟨-, hlost⟩, hnow⟩ := hdue
    -- The last event left the device closed, and set the time that is due.
    have hlast : ∀ last ∈ p.deviceLog.getLast?, last.isOpening = false ∧
        p.nextReconnectNs = last.timeNs + o.reconnectNs := by
      intro last hmem
      have hclosed : last.isOpening = false := by
        by_contra hopening
        have hall : p.deviceLog.getLast?.all (·.isOpening) = true := by
          rw [Option.mem_def.1 hmem]
          exact Bool.not_eq_false _ ▸ hopening
        exact absurd hlost (Int32.not_lt.2 (h.state.opened hall))
      exact ⟨hclosed, (h.state.closed last hmem hclosed).2⟩
    have hnonempty : p.deviceLog ≠ [] := by
      intro hnil
      have hall : p.deviceLog.getLast?.all (·.isOpening) = true := by
        rw [hnil]
        rfl
      exact absurd hlost (Int32.not_lt.2 (h.state.opened hall))
    have hpaced (opened : Bool) : ∀ last ∈ p.deviceLog.getLast?, last.timeNs.toNat < 2 ^ 63 →
        Paced o.reconnectNs.toNat last (.tried env.nowNs opened) := by
      intro last hmem hsmall
      obtain ⟨hclosed, hnext⟩ := hlast last hmem
      rw [Paced, if_neg (by rw [hclosed]; exact Bool.false_ne_true)]
      refine ⟨rfl, ?_⟩
      have hdelay := reconnectNs_lt o.toBridgeOptions
      have hle := UInt64.le_iff_toNat_le.1 hnow
      rw [hnext, UInt64.toNat_add, Nat.mod_eq_of_lt (by omega)] at hle
      exact hle
    have hconfig : p.bridge.config.devicePath = true := by
      rw [h.config]
      exact hdevice
    dsimp only
    by_cases hfd : env.openFd < 0
    · rw [tryReconnect_failed hconfig hfd]
      exact {
        config := h.config
        state := by
          rw [List.getLast?_concat]
          refine ⟨fun hall => (by cases hall), ?_⟩
          intro e he _
          obtain rfl := Option.some.inj he
          exact ⟨hlost, rfl⟩
        first := h.first_snoc fun hnil => absurd hnil hnonempty
        paced := h.paced_snoc (hpaced false)
        disconnects := by
          rw [List.countP_append]
          exact h.disconnects
        reconnects := by
          rw [List.countP_append]
          exact h.reconnects }
    · obtain ⟨hrc, hsame⟩ :=
        tryReconnect_opened hconfig hfd env.opened.send env.opened.urgent
      have hopened : (tryReconnectDevice p.bridge.toBridge env.openFd env.opened.send
          env.opened.urgent).1 == 0 := by
        rw [hrc]
        rfl
      rw [if_pos hopened, hopened]
      exact {
        config := hsame.config.trans h.config
        state := by
          rw [List.getLast?_concat]
          refine ⟨fun _ => ?_, ?_⟩
          · rw [hsame.inputFd]
            exact Int32.not_lt.1 hfd
          · intro e he hclosed
            obtain rfl := Option.some.inj he
            cases hclosed
        first := h.first_snoc fun hnil => absurd hnil hnonempty
        paced := h.paced_snoc (hpaced true)
        disconnects := by
          rw [List.countP_append]
          exact hsame.disconnects.trans h.disconnects
        reconnects := by
          have hcount : (p.deviceLog ++ [DeviceEvent.tried env.nowNs true]).countP
              DeviceEvent.isOpening =
              p.deviceLog.countP DeviceEvent.isOpening + 1 := by
            simp [List.countP_append, DeviceEvent.isOpening]
          rw [hcount, UInt64.ofNat_add, ← h.reconnects]
          exact hsame.reconnects }
  · exact h

/-- Both branches of the device. -/
theorem serveDevice (h : PacedInv o p) (env : PassEnv) : PacedInv o (p.serveDevice o env) := by
  unfold Program.serveDevice
  split
  · exact h
  rename_i hopen
  have hopen' : 0 ≤ p.bridge.inputFd := Int32.not_lt.1 hopen
  have hread : PacedInv o (if env.sourceIn then p.readDevice o env else p) := by
    split
    · have hdrain := SameDevice.drain p.bridge env.reads
      have hdrained : PacedInv o { p with
          bridge := (drainInputDevice p.bridge env.reads).2.2
          attempts := p.attempts ++ attemptsOf (drainInputDevice p.bridge env.reads).2.1 } :=
        h.sameSource ⟨hdrain, rfl, rfl⟩
      unfold Program.readDevice
      dsimp only
      split
      · refine hdrained.lose ?_ env.gone env.goneNs
        rw [hdrain.inputFd]
        exact hopen'
      · exact hdrained
    · exact h
  dsimp only
  generalize (if env.sourceIn then p.readDevice o env else p) = r at hread ⊢
  split
  · rename_i hhangup
    rw [Bool.and_eq_true, decide_eq_true_eq] at hhangup
    exact hread.lose hhangup.2 env.hungUp env.hungUpNs
  · exact hread

theorem pass (h : PacedInv o p) (hdevice : o.config.devicePath = true) (env : PassEnv) :
    PacedInv o (p.pass o env) := by
  have hreopen := h.reopen hdevice env
  unfold Program.pass
  split
  · exact h.sameSource ⟨.refl _, rfl, rfl⟩
  dsimp only
  split
  · exact hreopen
  · exact hreopen
  · exact hreopen.sameSource ⟨.refl _, rfl, rfl⟩
  · split
    · exact hreopen.sameSource ⟨.refl _, rfl, rfl⟩
    · rename_i q hserve
      have hconfig : (p.reopen o env).bridge.config.devicePath = true := by
        rw [hreopen.config]
        exact hdevice
      rw [Program.serveSource, if_pos hconfig] at hserve
      rw [← Option.some.inj hserve]
      exact (hreopen.serveDevice env).sameSource Program.sameSource_serveClient

theorem step (h : PacedInv o p) (hdevice : o.config.devicePath = true) {ops : DoubleOps}
    {step : ProgramStep} (hstep : (programMachine o ops).step p step = some q) :
    PacedInv o q := by
  cases step with
  | signal =>
    obtain rfl := Option.some.inj hstep
    exact h.sameSource ⟨.refl _, rfl, rfl⟩
  | barrier round =>
    simp only [programMachine] at hstep
    split at hstep
    · split at hstep
      · cases hstep
      · exact Option.some.inj hstep ▸ h.sameSource (Program.sameSource_barrierRound _ round)
    · cases hstep
  | pass env =>
    simp only [programMachine] at hstep
    split at hstep
    · exact Option.some.inj hstep ▸ h.pass hdevice env
    · cases hstep
  | terminal env =>
    simp only [programMachine] at hstep
    split at hstep
    · exact Option.some.inj hstep ▸ h.sameSource (Program.sameSource_terminate env)
    · cases hstep
  | ack round =>
    simp only [programMachine] at hstep
    split at hstep
    · exact Option.some.inj hstep ▸ h.sameSource (Program.sameSource_ackRound _ round)
    · cases hstep

end PacedInv

/-- In every run of the program on a device, whenever the device is lost and
whatever its opens return: the device is tried only while it is lost, and
never earlier than `reconnect_ms` behind the loss or the failed try before;
it is lost only while it is open; and the report counts the losses and the
successful tries.  The clock stays below 2^63 ns, which is 292 years, so no
deadline wraps. -/
theorem reconnects_paced {o : AdmittedOptions} {ops : DoubleOps} {ring : RingHeader}
    {clientFd inputFd : Int32} (hdevice : o.config.devicePath = true) (hopen : 0 ≤ inputFd)
    {steps : List ProgramStep} {p : Program}
    (hrun : (programMachine o ops).run (.boot o ring clientFd inputFd) steps = some p)
    (hclock : ∀ e ∈ p.deviceLog, e.timeNs.toNat < 2 ^ 63) :
    p.deviceLog.IsChain (Paced o.reconnectNs.toNat) ∧
    (∀ e ∈ p.deviceLog.head?, e.isLoss = true) ∧
    (0 ≤ p.bridge.inputFd ↔ p.deviceLog.getLast?.all (·.isOpening) = true) ∧
    p.bridge.stats.deviceDisconnects = UInt64.ofNat (p.deviceLog.countP DeviceEvent.isLoss) ∧
    p.bridge.stats.deviceReconnects =
      UInt64.ofNat (p.deviceLog.countP DeviceEvent.isOpening) := by
  have hboot : PacedInv o (.boot o ring clientFd inputFd) :=
    ⟨rfl, ⟨fun _ => hopen, fun e he => (by cases he)⟩, fun e he => (by cases he),
      fun _ => .nil, rfl, rfl⟩
  have h : PacedInv o p :=
    Machine.run_invariant (PacedInv o) (fun _ _ _ h hstep => h.step hdevice hstep) hboot hrun
  refine ⟨h.paced hclock, h.first, ⟨fun hfd => ?_, h.state.opened⟩, h.disconnects, h.reconnects⟩
  cases hlast : p.deviceLog.getLast? with
  | none => rfl
  | some e => exact h.last_of_open hfd e hlast

theorem reconnects_paced_device :
    ∃ p, (programMachine deviceOptions .exact).run
        (.boot deviceOptions (freshBridge 64).ring 5 6) deviceSteps = some p ∧
      p.deviceLog = [.lost 1000000, .tried 300000000 true] ∧
      p.deviceLog.IsChain (Paced deviceOptions.reconnectNs.toNat) := by
  have hrun : (programMachine deviceOptions .exact).run
      (.boot deviceOptions (freshBridge 64).ring 5 6) deviceSteps = some _ := rfl
  exact ⟨_, hrun, rfl, (reconnects_paced rfl (by decide) hrun (by decide)).1⟩

end Hfior
