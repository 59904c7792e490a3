import Hfior.Input.Program

/-!
# The program runs its calls

Every run of `programMachine` is one of `lifetimeMachine`, with the same
bridge and the same attempts: the passes of the loops make the calls that
`mainMachine` admits in any order.  So what holds in every run of the calls
holds of the program.

The start of the synthetic source is no call.  `withSource` puts its outcome
into the first state instead, which nothing reads before the main loop.
-/

namespace Hfior

/-! ## The source -/

/-- The bridge with another synthetic source. -/
def InputBridge.withSource (b : InputBridge) (source : SyntheticSource) (ready : Bool) :
    InputBridge :=
  { b with synthetic := source, sourceReady := ready }

section
variable (b : Bridge) (modeReceived armed ready : Bool) (received : Except Errno (List UInt8))
variable (send : IoResult)

/-- The barrier does not look at `source_ready`. -/
theorem barrierMessage_sourceReady :
    (barrierMessage { b with sourceReady := ready } modeReceived received armed send).bridge
        { b with sourceReady := ready } =
      { (barrierMessage b modeReceived received armed send).bridge b with
        sourceReady := ready } := by
  cases received with
  | error errno => rfl
  | ok datagram =>
    simp only [barrierMessage]
    split
    · rfl
    split
    · rfl
    simp only [dispatchBarrier, handleStart]
    split
    · split <;> rfl
    split
    · split
      · rfl
      · cases send <;> rfl
    split <;> rfl

end

/-! ## Runs of the calls -/

theorem run_snoc {σ α : Type*} {m : Machine σ α} {s t u : σ} {as : List α} {a : α}
    (hrun : m.run s as = some t) (hstep : m.step t a = some u) :
    m.run s (as ++ [a]) = some u :=
  Machine.run_append.2 ⟨t, hrun, Machine.run_cons.2 ⟨u, hstep, rfl⟩⟩

/-- The lifetime behind a terminal record. -/
def MainStage.isEnded : MainStage → Bool
  | .ended _ => true
  | _ => false

/-- The terminal record has been published. -/
def Program.isEnded (p : Program) : Bool :=
  match p.stage with
  | .waiting _ | .finished => true
  | _ => false

/-- Some calls lead from the first bridge to this bridge and these
attempts. -/
def Reaches (b₀ b : InputBridge) (attempts : List Attempt) (ended : Bool) : Prop :=
  ∃ source ready calls stage,
    lifetimeMachine.run (.boot (b₀.withSource source ready)) calls =
      some ⟨⟨b, attempts⟩, stage⟩ ∧ stage.isEnded = ended

/-- In front of the main loop: they do with any source. -/
def ReachesBarrier (b₀ b : InputBridge) : Prop :=
  ∀ source ready, ∃ calls, lifetimeMachine.run (.boot (b₀.withSource source ready)) calls =
    some ⟨⟨b.withSource source ready, []⟩, .barrier⟩

section
variable {b₀ b : InputBridge} {attempts : List Attempt}

theorem ReachesBarrier.reaches (h : ReachesBarrier b₀ b) : Reaches b₀ b [] false := by
  obtain ⟨calls, hrun⟩ := h b.synthetic b.sourceReady
  exact ⟨b.synthetic, b.sourceReady, calls, .barrier, hrun, rfl⟩

/-- The calls of the main loop. -/
def MainCall.isLoop : MainCall → Bool
  | .device .. | .synthetic .. | .control .. | .reconnect .. => true
  | .barrier .. | .discard .. | .terminal .. => false

/-- A call of the main loop. -/
theorem Reaches.call (h : Reaches b₀ b attempts false) {call : MainCall}
    (hloop : call.isLoop = true) (hready : b.ready call = true) :
    Reaches b₀ (b.call call).2 (attempts ++ attemptsOf (b.call call).1) false := by
  obtain ⟨source, ready, calls, stage, hrun, hended⟩ := h
  refine ⟨source, ready, calls ++ [call], .loop, run_snoc hrun ?_, rfl⟩
  refine lifetimeMachine_step.2 ⟨?_, mainMachine_step.2 ⟨hready, rfl⟩⟩
  cases stage with
  | ended stop => cases hended
  | barrier =>
    cases call with
    | device | synthetic | control | reconnect => rfl
    | barrier | discard | terminal => cases hloop
  | loop =>
    cases call with
    | device | synthetic | control | reconnect => rfl
    | barrier | discard | terminal => cases hloop

/-- The terminal record. -/
theorem Reaches.terminal (h : Reaches b₀ b attempts false) (nowNs : UInt64)
    (env : PublishEnv) (urgent : IoResult) :
    Reaches b₀ (publishTerminal b nowNs env urgent).2
      (attempts ++ attemptsOf [(publishTerminal b nowNs env urgent).1]) true := by
  obtain ⟨source, ready, calls, stage, hrun, hended⟩ := h
  refine ⟨source, ready, calls ++ [.terminal nowNs env urgent], .ended ⟨b, attempts⟩,
    run_snoc hrun ?_, rfl⟩
  refine lifetimeMachine_step.2 ⟨?_, mainMachine_step.2 ⟨rfl, rfl⟩⟩
  cases stage with
  | ended stop => cases hended
  | barrier | loop => rfl

/-- A message behind the terminal record. -/
theorem Reaches.controlEnded (h : Reaches b₀ b attempts true)
    (received : Except Errno (List UInt8)) (nowNs : UInt64) (urgent : IoResult) :
    Reaches b₀ { b with toBridge :=
      (handleControlMessage b.toBridge received nowNs urgent).bridge } attempts true := by
  obtain ⟨source, ready, calls, stage, hrun, hended⟩ := h
  cases stage with
  | barrier | loop => cases hended
  | ended stop =>
    refine ⟨source, ready, calls ++ [.control received nowNs urgent], .ended stop,
      run_snoc hrun ?_, rfl⟩
    refine lifetimeMachine_step.2 ⟨rfl, mainMachine_step.2 ⟨rfl, ?_⟩⟩
    simp [InputBridge.call, attemptsOf]

/-- A datagram of the start barrier. -/
theorem ReachesBarrier.barrier (h : ReachesBarrier b₀ b) (modeReceived armed : Bool)
    (received : Except Errno (List UInt8)) (send : IoResult) :
    ReachesBarrier b₀ { b with toBridge :=
      (barrierMessage b.toBridge modeReceived received armed send).bridge b.toBridge } := by
  intro source ready
  obtain ⟨calls, hrun⟩ := h source ready
  refine ⟨calls ++ [.barrier modeReceived received armed send], run_snoc hrun ?_⟩
  refine lifetimeMachine_step.2 ⟨rfl, mainMachine_step.2 ⟨rfl, ?_⟩⟩
  have hbarrier := barrierMessage_sourceReady b.toBridge modeReceived armed ready received send
  simp only [InputBridge.call, InputBridge.withSource, hbarrier, attemptsOf, List.map_nil,
    List.append_nil]

end

/-! ## The end of the barrier -/

section
variable (b : Bridge) (modeReceived armed : Bool) (received : Except Errno (List UInt8))
variable (send : IoResult)

/-- A datagram of the barrier leaves the source alone. -/
theorem barrierMessage_source :
    ((barrierMessage b modeReceived received armed send).bridge b).inputFd = b.inputFd ∧
      ((barrierMessage b modeReceived received armed send).bridge b).sourceReady =
        b.sourceReady := by
  cases received with
  | error errno => exact ⟨rfl, rfl⟩
  | ok datagram =>
    simp only [barrierMessage]
    split
    · exact ⟨rfl, rfl⟩
    split
    · exact ⟨rfl, rfl⟩
    simp only [dispatchBarrier, handleStart]
    split
    · split <;> exact ⟨rfl, rfl⟩
    split
    · split
      · exact ⟨rfl, rfl⟩
      · cases send <;> exact ⟨rfl, rfl⟩
    split <;> exact ⟨rfl, rfl⟩

end

/-- What is discarded does not depend on what the barrier writes. -/
theorem discardPendingInput_withBridge (b : InputBridge) (c : Bridge)
    (hinput : c.inputFd = b.inputFd) (reads : List DeviceRead) (keys : Option KeyBitmap) :
    (discardPendingInput { b with toBridge := c } reads keys).2 =
      { (discardPendingInput b reads keys).2 with toBridge := c } := by
  unfold discardPendingInput refreshButtonState
  simp only [hinput]
  split
  · rfl
  split
  · rfl
  cases keys <;> rfl

section
variable {b₀ b : InputBridge}

/-- A START of a synthetic source. -/
theorem ReachesBarrier.startTimer (h : ReachesBarrier b₀ b) (rate : SyntheticRate)
    (armNs : UInt64) (settime : IoResult) (modeReceived : Bool)
    (received : Except Errno (List UInt8)) (send : IoResult) :
    let armed := armSyntheticSource b rate armNs settime
    let result := barrierMessage b.toBridge modeReceived received (armed.1 == 0) send
    Reaches b₀ { armed.2 with
      toBridge := { result.bridge b.toBridge with sourceReady := armed.2.sourceReady } }
      [] false := by
  intro armed result
  obtain ⟨calls, hrun⟩ := (h.barrier modeReceived (armed.1 == 0) received send)
    armed.2.synthetic armed.2.sourceReady
  refine ⟨_, _, calls, .barrier, hrun.trans ?_, rfl⟩
  congr 3
  simp only [armed, armSyntheticSource]
  cases settime <;> rfl

/-- A START of a device. -/
theorem ReachesBarrier.startDevice (h : ReachesBarrier b₀ b) (reads : List DeviceRead)
    (keys : Option KeyBitmap) (modeReceived : Bool) (received : Except Errno (List UInt8))
    (send : IoResult) :
    let armed := discardPendingInput b reads keys
    let result := barrierMessage b.toBridge modeReceived received (armed.1 == 0) send
    Reaches b₀ { armed.2 with
      toBridge := { result.bridge b.toBridge with sourceReady := armed.2.sourceReady } }
      [] false := by
  intro armed result
  obtain ⟨hinput, hready⟩ :=
    barrierMessage_source b.toBridge modeReceived (armed.1 == 0) received send
  obtain ⟨calls, hrun⟩ := (h.barrier modeReceived (armed.1 == 0) received send)
    b.synthetic b.sourceReady
  have hself : ({ b with toBridge := result.bridge b.toBridge } : InputBridge).withSource
      b.synthetic b.sourceReady = { b with toBridge := result.bridge b.toBridge } := by
    rw [InputBridge.withSource, ← hready]
  have hsource : armed.2.sourceReady = (result.bridge b.toBridge).sourceReady := by
    rw [discardPendingInput_toBridge, hready]
  have hdiscard := discardPendingInput_withBridge b (result.bridge b.toBridge) hinput reads keys
  refine ⟨_, _, calls ++ [.discard reads keys], .barrier, run_snoc hrun ?_, rfl⟩
  rw [hself]
  refine lifetimeMachine_step.2 ⟨rfl, mainMachine_step.2 ⟨rfl, ?_⟩⟩
  simp only [InputBridge.call, attemptsOf, List.map_nil, List.append_nil, Running.mk.injEq,
    and_true]
  rw [hdiscard, hsource]

end

/-! ## A pass of the main loop -/

/-- Serving the device does not change the options. -/
theorem serveDevice_config (b : InputBridge) (reads : List DeviceRead) (env : DeviceStateEnv) :
    (Hfior.serveDevice b reads env).2.config = b.config := by
  have hdrain : (drainInputDevice b reads).2.2.config = b.config :=
    drainInputDevice_keeps (P := fun c _ => c.config = b.config)
      (fun c _ env record h _ => (publishRecord_device c env record).1.trans h) rfl reads
      (le_refl ([] ++ attemptsOf (drainInputDevice b reads).2.1).length)
  rw [← hdrain]
  simp only [Hfior.serveDevice]
  split
  · unfold InputBridge.markGone markDeviceGone sendDeviceState
    split
    · rfl
    · cases env.urgent <;> rfl
  · rfl

/-- The state of the program, as far as the calls have one. -/
def Program.InLoop (b₀ : InputBridge) (p : Program) : Prop :=
  Reaches b₀ p.bridge p.attempts false

namespace Program

variable {b₀ : InputBridge} {p q : Program} {o : AdmittedOptions} {env : PassEnv}

theorem InLoop.call (h : p.InLoop b₀) (call : MainCall) (hloop : call.isLoop = true)
    (hready : p.bridge.ready call = true) (hbridge : q.bridge = (p.bridge.call call).2)
    (hattempts : q.attempts = p.attempts ++ attemptsOf (p.bridge.call call).1) :
    q.InLoop b₀ := by
  have hcall := Reaches.call h hloop hready
  rwa [← hbridge, ← hattempts] at hcall

theorem InLoop.reopen (h : p.InLoop b₀) : (p.reopen o env).InLoop b₀ := by
  unfold Program.reopen
  split
  · rename_i hdue
    simp only [reconnectDue, Bool.and_eq_true, decide_eq_true_eq] at hdue
    refine h.call (.reconnect env.openFd env.opened) rfl ?_ rfl (by
      simp [InputBridge.call, attemptsOf])
    simp [InputBridge.ready, hdue.1.1, hdue.1.2]
  · exact h

theorem readDevice_bridge : (p.readDevice o env).bridge =
    (Hfior.serveDevice p.bridge env.reads env.gone).2 := by
  unfold readDevice Hfior.serveDevice
  dsimp only
  split <;> rfl

theorem readDevice_attempts : (p.readDevice o env).attempts =
    p.attempts ++ attemptsOf (Hfior.serveDevice p.bridge env.reads env.gone).1 := by
  unfold readDevice Hfior.serveDevice
  dsimp only
  split <;> rfl

/-- Both branches of a device are one call. -/
theorem InLoop.serveDevice (h : p.InLoop b₀) (hdevice : p.bridge.config.devicePath = true) :
    (p.serveDevice o env).InLoop b₀ := by
  unfold Program.serveDevice
  split
  · exact h
  rename_i hopen
  have hready (reads : Option (List DeviceRead)) (hangup : Bool) :
      p.bridge.ready (.device reads hangup env.gone env.hungUp) = true := by
    simpa [InputBridge.ready, hdevice] using hopen
  -- Behind the POLLIN branch the device is still one, open or lost.
  have hread : (if env.sourceIn then p.readDevice o env else p).InLoop b₀ ∧
      (if env.sourceIn then p.readDevice o env else p).bridge.config.devicePath = true := by
    split
    · refine ⟨h.call (.device (some env.reads) false env.gone env.hungUp) rfl
        (hready _ _) readDevice_bridge readDevice_attempts, ?_⟩
      rw [readDevice_bridge, serveDevice_config, hdevice]
    · exact ⟨h, hdevice⟩
  dsimp only
  generalize (if env.sourceIn then p.readDevice o env else p) = r at hread ⊢
  split
  · rename_i hhangup
    rw [Bool.and_eq_true] at hhangup
    refine hread.1.call (.device none true env.gone env.hungUp) rfl ?_ ?_ ?_
    · rw [InputBridge.ready, hread.2, hhangup.2, Bool.and_self]
    · simp only [InputBridge.call, hangupDevice, hread.2, hhangup.2, Bool.and_self, if_true, lose]
    · simp [InputBridge.call, attemptsOf, lose]
  · exact hread.1

theorem InLoop.serveTimer (h : p.InLoop b₀) (hdevice : p.bridge.config.devicePath = false)
    (hserve : p.serveTimer env = some q) : q.InLoop b₀ := by
  obtain ⟨r, hread, rfl⟩ := Option.map_eq_some_iff.1 hserve
  have hr : r.InLoop b₀ := by
    split at hread
    · unfold readTimer at hread
      split at hread
      · rename_i expirations htimer
        obtain rfl := Option.some.inj hread
        exact h.call (.synthetic expirations env.clock env.frames) rfl
          (by simp [InputBridge.ready, hdevice]) rfl rfl
      all_goals first
        | exact Option.some.inj hread ▸ h
        | cases hread
    · exact Option.some.inj hread ▸ h
  split
  · exact hr
  · exact hr

theorem InLoop.serveSource (h : p.InLoop b₀) (hserve : p.serveSource o env = some q) :
    q.InLoop b₀ := by
  unfold Program.serveSource at hserve
  split at hserve
  · rename_i hdevice
    exact Option.some.inj hserve ▸ h.serveDevice hdevice
  · rename_i hdevice
    exact h.serveTimer (by simpa using hdevice) hserve

theorem InLoop.serveClient (h : p.InLoop b₀) : (p.serveClient env).InLoop b₀ := by
  have hcontrol : (if env.clientIn then
      { p with bridge := { p.bridge with toBridge := (handleControlMessage p.bridge.toBridge
        env.received env.controlNs env.controlUrgent).bridge } } else p).InLoop b₀ := by
    split
    · exact h.call (.control env.received env.controlNs env.controlUrgent) rfl rfl rfl
        (by simp [InputBridge.call, attemptsOf])
    · exact h
  unfold Program.serveClient
  dsimp only
  split <;> exact hcontrol

theorem InLoop.pass (h : p.InLoop b₀) : (p.pass o env).InLoop b₀ := by
  unfold Program.pass
  split
  · exact h
  dsimp only
  split
  · exact h.reopen
  · exact h.reopen
  · exact h.reopen
  · split
    · exact h.reopen
    · rename_i hserve
      exact (h.reopen.serveSource hserve).serveClient

end Program

/-! ## Stages -/

/-- The main loop goes on, or it is over. -/
def ProgramStage.inLoop : ProgramStage → Bool
  | .looping | .leaving | .failed => true
  | .barrier _ | .waiting _ | .finished => false

namespace Program

variable {p q : Program} {o : AdmittedOptions} {env : PassEnv}

theorem reopen_stage : (p.reopen o env).stage = p.stage := by
  unfold Program.reopen
  split <;> rfl

theorem serveDevice_stage : (p.serveDevice o env).stage = p.stage := by
  have hread : (p.readDevice o env).stage = p.stage := by
    unfold readDevice
    dsimp only
    split <;> rfl
  unfold Program.serveDevice
  split
  · rfl
  dsimp only
  split <;> split <;> first
    | rfl
    | exact hread

theorem readTimer_stage (hread : p.readTimer env = some q) : q.stage = p.stage := by
  unfold readTimer at hread
  split at hread
  all_goals first
    | exact Option.some.inj hread ▸ rfl
    | cases hread

theorem serveSource_stage (hserve : p.serveSource o env = some q) : q.stage = p.stage := by
  unfold serveSource at hserve
  split at hserve
  · rw [← Option.some.inj hserve]
    exact serveDevice_stage
  · obtain ⟨r, hread, rfl⟩ := Option.map_eq_some_iff.1 hserve
    have hr : r.stage = p.stage := by
      split at hread
      · exact readTimer_stage hread
      · exact Option.some.inj hread ▸ rfl
    split <;> exact hr

theorem serveClient_inLoop (h : p.stage.inLoop = true) :
    (p.serveClient env).stage.inLoop = true := by
  unfold serveClient
  dsimp only
  split
  · rfl
  · split <;> exact h

/-- A pass stays in the loop, or leaves it to the terminal record. -/
theorem pass_inLoop (h : p.stage.inLoop = true) : (p.pass o env).stage.inLoop = true := by
  have hreopen : (p.reopen o env).stage.inLoop = true := by
    rw [reopen_stage]
    exact h
  unfold pass
  split
  · rfl
  dsimp only
  split
  · exact hreopen
  · exact hreopen
  · rfl
  · split
    · rfl
    · rename_i hserve
      exact serveClient_inLoop (serveSource_stage hserve ▸ hreopen)

theorem isEnded_of_inLoop (h : p.stage.inLoop = true) : p.isEnded = false := by
  rw [isEnded]
  cases hstage : p.stage with
  | barrier | looping | leaving | failed => rfl
  | waiting | finished =>
    rw [hstage] at h
    cases h

end Program

/-! ## Runs of the program -/

/-- What the calls have done, in every stage. -/
structure ProgramInv (b₀ : InputBridge) (p : Program) : Prop where
  barrier : ∀ modeReceived, p.stage = .barrier modeReceived →
    ReachesBarrier b₀ p.bridge ∧ p.attempts = []
  reaches : Reaches b₀ p.bridge p.attempts p.isEnded

namespace ProgramInv

variable {b₀ : InputBridge} {p q : Program} {o : AdmittedOptions} {ops : DoubleOps}

/-- Behind the barrier. -/
theorem of_inLoop (hstage : q.stage.inLoop = true) (h : q.InLoop b₀) : ProgramInv b₀ q := by
  refine ⟨fun modeReceived hbarrier => ?_, (Program.isEnded_of_inLoop hstage).symm ▸ h⟩
  rw [hbarrier] at hstage
  cases hstage

/-- In the barrier. -/
theorem of_barrier (modeReceived : Bool) (hstage : q.stage = .barrier modeReceived)
    (hattempts : q.attempts = []) (h : ReachesBarrier b₀ q.bridge) : ProgramInv b₀ q := by
  have hended : q.isEnded = false := by
    unfold Program.isEnded
    rw [hstage]
  refine ⟨fun _ _ => ⟨h, hattempts⟩, ?_⟩
  rw [hattempts, hended]
  exact h.reaches

/-- Behind the terminal record. -/
theorem of_ended (hended : q.isEnded = true) (h : Reaches b₀ q.bridge q.attempts true) :
    ProgramInv b₀ q := by
  refine ⟨fun modeReceived hstage => ?_, hended.symm ▸ h⟩
  unfold Program.isEnded at hended
  rw [hstage] at hended
  cases hended

theorem barrierRound {modeReceived : Bool} (h : ProgramInv b₀ p)
    (hstage : p.stage = .barrier modeReceived) (r : StartRound) :
    ProgramInv b₀ (p.barrierRound o ops modeReceived r) := by
  obtain ⟨hreaches, hattempts⟩ := h.barrier modeReceived hstage
  have hfailed : ProgramInv b₀ { p with stage := .failed } := by
    refine of_inLoop rfl ?_
    rw [Program.InLoop, hattempts]
    exact hreaches.reaches
  unfold Program.barrierRound
  split
  · exact h
  · exact h
  · exact hfailed
  split
  · exact hfailed
  unfold Program.barrierReadable
  dsimp only
  have hround := hreaches.barrier modeReceived ((armSource o p.bridge r).1 == 0) r.received r.send
  split
  · rename_i b mode hresult
    rw [hresult] at hround
    exact of_barrier mode rfl hattempts hround
  · exact hfailed
  · rename_i b reply hresult
    refine of_inLoop rfl ?_
    rw [Program.InLoop, hattempts]
    unfold armSource at hresult ⊢
    split at hresult
    · rename_i hdevice
      have hstart := hreaches.startTimer (o.rate hdevice) r.armNs r.settime modeReceived
        r.received r.send
      rw [dif_pos hdevice]
      simp only [hresult] at hstart
      exact hstart
    · rename_i hdevice
      have hstart := hreaches.startDevice r.reads r.keys modeReceived r.received r.send
      rw [dif_neg hdevice]
      simp only [hresult] at hstart
      exact hstart
  · rename_i b hresult
    rw [hresult] at hround
    refine of_inLoop rfl ?_
    rw [Program.InLoop, hattempts]
    exact hround.reaches

theorem terminate (h : ProgramInv b₀ p) (hended : p.isEnded = false) (env : TerminalEnv) :
    ProgramInv b₀ (p.terminate env) := by
  have hreaches := h.reaches
  rw [hended] at hreaches
  exact of_ended rfl (hreaches.terminal env.nowNs env.publish env.urgent)

theorem ackRound (h : ProgramInv b₀ p) {deadlineNs : UInt64}
    (hstage : p.stage = .waiting deadlineNs) (r : AckRound) :
    ProgramInv b₀ (p.ackRound deadlineNs r) := by
  have hended : p.isEnded = true := by
    unfold Program.isEnded
    rw [hstage]
  have hreaches := h.reaches
  rw [hended] at hreaches
  unfold Program.ackRound
  split
  · exact of_ended rfl hreaches
  split
  · exact h
  · exact h
  · exact of_ended rfl hreaches
  · have hcontrol := hreaches.controlEnded r.received r.controlNs r.urgent
    split <;> dsimp only <;> split
    · exact of_ended rfl hcontrol
    · exact of_ended hended hcontrol
    · exact of_ended rfl hreaches
    · exact h

theorem step (h : ProgramInv b₀ p) {step : ProgramStep}
    (hstep : (programMachine o ops).step p step = some q) : ProgramInv b₀ q := by
  cases step with
  | signal =>
    obtain rfl := Option.some.inj hstep
    exact ⟨h.barrier, h.reaches⟩
  | barrier round =>
    simp only [programMachine] at hstep
    split at hstep
    · rename_i modeReceived hstage
      split at hstep
      · cases hstep
      · exact Option.some.inj hstep ▸ h.barrierRound hstage round
    · cases hstep
  | pass env =>
    simp only [programMachine] at hstep
    split at hstep
    · rename_i hlooping
      obtain rfl := Option.some.inj hstep
      have hloop : p.stage.inLoop = true := hlooping.1 ▸ rfl
      have hreaches := h.reaches
      rw [Program.isEnded_of_inLoop hloop] at hreaches
      exact of_inLoop (Program.pass_inLoop hloop) (Program.InLoop.pass hreaches)
    · cases hstep
  | terminal env =>
    simp only [programMachine] at hstep
    split at hstep
    · rename_i hover
      obtain rfl := Option.some.inj hstep
      refine h.terminate ?_ env
      unfold Program.loopOver at hover
      unfold Program.isEnded
      cases hstage : p.stage with
      | barrier | looping | leaving | failed => rfl
      | waiting | finished =>
        rw [hstage] at hover
        cases hover
    · cases hstep
  | ack round =>
    simp only [programMachine] at hstep
    split at hstep
    · rename_i deadlineNs hstage
      exact Option.some.inj hstep ▸ h.ackRound hstage round
    · cases hstep

end ProgramInv

/-- In front of the barrier no call has been made. -/
theorem programInv_boot (o : AdmittedOptions) (ring : RingHeader) (clientFd inputFd : Int32) :
    ProgramInv (Program.boot o ring clientFd inputFd).bridge
      (.boot o ring clientFd inputFd) :=
  .of_barrier false rfl rfl fun _ _ => ⟨[], rfl⟩

/-- From the barrier to the end, whatever the clocks, the polls and the system
calls return and whenever a signal comes, the program has the bridge and the
attempts of a run of its calls from the boot state with the source as it was
armed, and the run is behind its terminal record if and only if the program
is. -/
theorem program_runs_calls {o : AdmittedOptions} {ops : DoubleOps} {ring : RingHeader}
    {clientFd inputFd : Int32} {steps : List ProgramStep} {p : Program}
    (hrun : (programMachine o ops).run (.boot o ring clientFd inputFd) steps = some p) :
    ∃ source ready calls s,
      lifetimeMachine.run (.boot ((Program.boot o ring clientFd inputFd).bridge.withSource
        source ready)) calls = some s ∧
      s.running = ⟨p.bridge, p.attempts⟩ ∧ s.stage.isEnded = p.isEnded := by
  have hinv : ProgramInv (Program.boot o ring clientFd inputFd).bridge p :=
    Machine.run_invariant (ProgramInv (Program.boot o ring clientFd inputFd).bridge)
      (fun _ _ _ h => h.step) (programInv_boot o ring clientFd inputFd) hrun
  obtain ⟨source, ready, calls, stage, hcalls, hended⟩ := hinv.reaches
  exact ⟨source, ready, calls, _, hcalls, rfl, hended⟩

/-! ## A whole run -/

/-- A device, and no deadline. -/
def deviceOptions : AdmittedOptions where
  config := ⟨true, false⟩
  syntheticRateHz := 0
  buttonEvery := 0
  publishTimestamps := false
  capacity := 64
  reconnectMs := 250
  duration := ⟨.finite 0, rfl⟩
  admitted := rfl

/-- A round of the barrier that receives the datagram, and finds nothing to
discard. -/
def barrierReceives (datagram : List UInt8) : StartRound where
  poll := .ready
  hungUp := false
  received := .ok datagram
  armNs := 0
  settime := .done
  reads := []
  keys := none
  startedNs := 0
  send := .done

/-- A pass with nothing to serve. -/
def idlePass (nowNs : UInt64) : PassEnv where
  nowNs := nowNs
  openFd := -1
  opened := ⟨.done, .done⟩
  poll := .ready
  sourceIn := false
  sourceHangup := false
  timer := .error .EAGAIN
  clock := fun _ => nowNs
  frames := fun _ => ⟨nowNs, quietEnv⟩
  reads := []
  gone := ⟨.done, .done⟩
  goneNs := nowNs
  hungUp := ⟨.done, .done⟩
  hungUpNs := nowNs
  clientIn := false
  clientHangup := false
  received := .error .EAGAIN
  controlNs := nowNs
  controlUrgent := .done

/-- The client starts, the device sends a frame and is lost, a first try to
open it comes too early and a second one succeeds, and a signal ends the loop.
The client has not acknowledged anything when the deadline of the terminal
acknowledgement passes. -/
def deviceSteps : List ProgramStep :=
  [.barrier (barrierReceives (SetModeMessage.bytes ⟨HFIOR_MODE_HFIOR, 0, 0⟩)),
    .barrier (barrierReceives (headerBytes HFIOR_MSG_START)),
    .pass { idlePass 1000000 with
      sourceIn := true
      reads := [.events [quietReading (untimed EV_REL REL_X 5),
        quietReading (untimed EV_SYN SYN_REPORT 0)], .eof] },
    .pass (idlePass 2000000),
    .pass { idlePass 300000000 with openFd := 7 },
    .signal,
    .terminal ⟨300000001, quietEnv, .done, 300000002⟩,
    .ack ⟨400000002, .timedOut, false, false, .error .EAGAIN, 0, .done⟩]

theorem program_runs_calls_device :
    ∃ p, (programMachine deviceOptions .exact).run
      (.boot deviceOptions (freshBridge 64).ring 5 6) deviceSteps = some p ∧
      p.stage = .finished ∧ p.attempts.length = 2 ∧
      ∃ source ready calls s,
        lifetimeMachine.run (.boot ((Program.boot deviceOptions (freshBridge 64).ring 5
          6).bridge.withSource source ready)) calls = some s ∧
        s.running = ⟨p.bridge, p.attempts⟩ ∧ s.stage.isEnded = p.isEnded := by
  have hrun : (programMachine deviceOptions .exact).run
      (.boot deviceOptions (freshBridge 64).ring 5 6) deviceSteps = some _ := rfl
  exact ⟨_, hrun, rfl, rfl, program_runs_calls hrun⟩

end Hfior
