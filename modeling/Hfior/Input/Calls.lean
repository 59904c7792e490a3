import Hfior.Bridge.Safety
import Hfior.Input.ProgramRuns

/-!
# What the calls keep

`KeptByCalls` is the rule for a property of the bridge and its attempts: if
every operation of a call keeps it, every call, every lifetime and every run
of the program keep it.  The ring that represents the accepted records is an
instance.

The input side has its own invariant.  In front of the terminal record every
attempt is a completed frame, which `stats.syn_reports` counts and which does
not have `HFIOR_RECORD_TERMINATE`; behind it there is one attempt more.
-/

namespace Hfior

open BitMask

/-! ## The rule -/

/-- A property that every operation of a call keeps, while there are at most
`bound` attempts. -/
structure KeptByCalls (P : Bridge → List Attempt → Prop) (bound : Nat) : Prop where
  publish : ∀ b attempts env record, P b attempts → attempts.length < bound →
    P (publishRecord b env record).bridge
      (attempts ++ [(publishRecord b env record).attempt])
  urgent : ∀ b attempts urgent, P b attempts → P (writeUrgent b urgent) attempts
  barrier : ∀ b attempts modeReceived received armed send, P b attempts →
    P ((barrierMessage b modeReceived received armed send).bridge b) attempts
  control : ∀ b attempts received nowNs urgent, P b attempts →
    P (handleControlMessage b received nowNs urgent).bridge attempts
  gone : ∀ b attempts send urgent, P b attempts → P (markDeviceGone b send urgent).1 attempts
  reconnect : ∀ b attempts fd send urgent, P b attempts →
    P (tryReconnectDevice b fd send urgent).2.1 attempts

namespace KeptByCalls

variable {P : Bridge → List Attempt → Prop} {bound : Nat} {b : InputBridge}
  {attempts : List Attempt}

theorem serve (hkept : KeptByCalls P bound) (h : P b.toBridge attempts)
    (reads : List DeviceRead) (env : DeviceStateEnv)
    (hle : (attempts ++ attemptsOf (serveDevice b reads env).1).length ≤ bound) :
    P (serveDevice b reads env).2.toBridge
      (attempts ++ attemptsOf (serveDevice b reads env).1) := by
  have hdrained := drainInputDevice_keeps hkept.publish h reads hle
  simp only [serveDevice]
  split
  · exact hkept.gone _ _ env.send env.urgent hdrained
  · exact hdrained

theorem hangup (hkept : KeptByCalls P bound) (h : P b.toBridge attempts)
    (env : DeviceStateEnv) : P (hangupDevice b env).toBridge attempts := by
  unfold hangupDevice
  split
  · exact hkept.gone _ _ env.send env.urgent h
  · exact h

theorem call (hkept : KeptByCalls P bound) (h : P b.toBridge attempts) (call : MainCall)
    (hle : (attempts ++ attemptsOf (b.call call).1).length ≤ bound) :
    P (b.call call).2.toBridge (attempts ++ attemptsOf (b.call call).1) := by
  have hquiet : attempts ++ attemptsOf [] = attempts := by simp [attemptsOf]
  cases call with
  | barrier modeReceived received armed send =>
    simp only [InputBridge.call, hquiet]
    exact hkept.barrier _ _ modeReceived received armed send h
  | discard reads keys =>
    simp only [InputBridge.call, hquiet, discardPendingInput_toBridge]
    exact h
  | device reads hangup gone hungUp =>
    cases reads with
    | none =>
      rw [← hquiet] at h
      cases hangup with
      | false => exact h
      | true => exact hkept.hangup h hungUp
    | some reads =>
      have hserved := hkept.serve h reads gone hle
      cases hangup with
      | false => exact hserved
      | true => exact hkept.hangup hserved hungUp
  | synthetic expirations clock env => exact emitRounds_keeps hkept.publish h clock env _ hle
  | control received nowNs urgent =>
    simp only [InputBridge.call, hquiet]
    exact hkept.control _ _ received nowNs urgent h
  | reconnect fd env =>
    simp only [InputBridge.call, hquiet]
    exact hkept.reconnect _ _ fd env.send env.urgent h
  | terminal nowNs env urgent =>
    refine hkept.urgent _ _ urgent (hkept.publish _ _ env (terminalRecord b nowNs) h ?_)
    simp only [InputBridge.call, attemptsOf, List.map_singleton, List.length_append,
      List.length_singleton] at hle
    omega

/-- What the calls keep, a lifetime keeps. -/
theorem run (hkept : KeptByCalls P bound) {calls : List MainCall} {s t : Lifetime}
    (h : P s.running.bridge.toBridge s.running.attempts)
    (hrun : lifetimeMachine.run s calls = some t) (hle : t.running.attempts.length ≤ bound) :
    P t.running.bridge.toBridge t.running.attempts := by
  refine Machine.run_invariant_below
    (fun s : Lifetime => P s.running.bridge.toBridge s.running.attempts)
    (fun s => s.running.attempts.length) ?_ ?_ h hrun (Nat.lt_succ_of_le hle)
  · intro s call t hstep
    obtain ⟨-, hnext⟩ := mainMachine_step.1 (lifetimeMachine_step.1 hstep).2
    rw [hnext]
    simp
  · intro s call t hs ht hstep
    obtain ⟨-, hnext⟩ := mainMachine_step.1 (lifetimeMachine_step.1 hstep).2
    rw [hnext] at ht ⊢
    exact hkept.call hs call (Nat.le_of_lt_succ ht)

/-- What the calls keep, the program keeps.  The start of its source is not a
call. -/
theorem program (hkept : KeptByCalls P bound) {o : AdmittedOptions} {ops : DoubleOps}
    {ring : RingHeader} {clientFd inputFd : Int32} {steps : List ProgramStep} {p : Program}
    (h : ∀ ready, P { Bridge.boot o.config ring clientFd inputFd with sourceReady := ready } [])
    (hrun : (programMachine o ops).run (.boot o ring clientFd inputFd) steps = some p)
    (hle : p.attempts.length ≤ bound) : P p.bridge.toBridge p.attempts := by
  obtain ⟨source, ready, calls, s, hcalls, hrunning, -⟩ := program_runs_calls hrun
  have hs := hkept.run (h ready) hcalls (by rwa [hrunning])
  rwa [hrunning] at hs

end KeptByCalls

/-- The ring has this capacity, and it represents the accepted records. -/
structure RingRepresents (capacity : UInt32) (b : Bridge) (attempts : List Attempt) : Prop where
  represents : Represents b.ring (acceptedRecords attempts)
  capacity_eq : b.ring.metadata.capacity = capacity

theorem RingRepresents.sameWindow {capacity : UInt32} {b b' : Bridge} {attempts : List Attempt}
    (h : RingRepresents capacity b attempts) (hsame : SameWindow b.ring b'.ring) :
    RingRepresents capacity b' attempts :=
  ⟨h.represents.sameWindow hsame, hsame.metadata ▸ h.capacity_eq⟩

theorem ringRepresents_kept (capacity : UInt32) :
    KeptByCalls (RingRepresents capacity) (2 ^ 64 - 1) where
  publish b attempts env record h hlt := by
    have hlength : (acceptedRecords (attempts ++ [(publishRecord b env record).attempt])).length ≤
        (attempts ++ [(publishRecord b env record).attempt]).length := acceptedRecords_length_le
    rw [List.length_append, List.length_singleton] at hlength
    refine ⟨represents_publishRecord h.represents env record (by omega), ?_⟩
    rw [publishRecord_metadata]
    exact h.capacity_eq
  urgent b attempts urgent h := h.sameWindow (sameWindow_writeUrgent b urgent)
  barrier b attempts modeReceived received armed send h := by
    refine ⟨?_, ?_⟩ <;> rw [barrierMessage_ring]
    · exact h.represents
    · exact h.capacity_eq
  control b attempts received nowNs urgent h := by
    rcases handleControlMessage_cases b nowNs urgent received with
      ⟨datagram, -, hack, hbridge⟩ | ⟨datagram, -, -, hbridge⟩ | hquiet
    · obtain ⟨-, hlo, hhi⟩ := (ackValid_iff h.represents).1 hack.valid
      rw [hbridge]
      exact ⟨h.represents.release rfl rfl rfl hlo hhi, h.capacity_eq⟩
    · rw [hbridge]
      refine h.sameWindow ?_
      unfold handleSetMode
      split <;> exact ⟨rfl, rfl, rfl, rfl⟩
    · exact h.sameWindow hquiet.window
  gone b attempts send urgent h := h.sameWindow (quiet_markDeviceGone b send urgent).window
  reconnect b attempts fd send urgent h := by
    rcases tryReconnectDevice_cases b send urgent fd with hquiet | hnext
    · exact h.sameWindow hquiet.window
    · exact h.sameWindow hnext.window

/-! ## Frames -/

/-- The attempts are the completed frames, and none of them ends the
session. -/
structure FramesCounted (b : InputBridge) (attempts : List Attempt) : Prop where
  reports : b.synReports = UInt64.ofNat attempts.length
  pending : b.frame.flags &&& HFIOR_RECORD_TERMINATE = 0
  unmarked : ∀ a ∈ attempts, a.record.has HFIOR_RECORD_TERMINATE = false

/-- A flag of another bit. -/
private theorem terminate_or {flags : UInt16} (h : flags &&& HFIOR_RECORD_TERMINATE = 0)
    {other : UInt16} (hother : other &&& HFIOR_RECORD_TERMINATE = 0) :
    (flags ||| other) &&& HFIOR_RECORD_TERMINATE = 0 := by
  rw [or_and, h, hother]
  rfl

private theorem terminate_if (c : Bool) {other : UInt16}
    (hother : other &&& HFIOR_RECORD_TERMINATE = 0) :
    (if c then other else 0) &&& HFIOR_RECORD_TERMINATE = 0 := by
  cases c with
  | true => exact hother
  | false => exact UInt16.zero_and

/-- No event sets the flag. -/
theorem accumulate_terminate {f : FrameAccumulator} (e : InputEvent)
    (h : f.flags &&& HFIOR_RECORD_TERMINATE = 0) :
    (accumulate f e).flags &&& HFIOR_RECORD_TERMINATE = 0 := by
  obtain ⟨t, hstamp⟩ := stampFrame_frame f (timevalToNs e.time)
  unfold accumulate
  rw [hstamp]
  dsimp only
  split
  · rw [(accumulateRel_frame _ _ _).2.1]
    exact h
  split
  · rw [accumulateKey_eq]
    exact terminate_or h (terminate_if _ rfl)
  split
  · exact terminate_or h rfl
  · exact h

theorem syntheticFrame_terminate (f : FrameAccumulator) (source : SyntheticSource)
    (h : f.flags &&& HFIOR_RECORD_TERMINATE = 0) :
    (syntheticFrame f source).flags &&& HFIOR_RECORD_TERMINATE = 0 := by
  unfold syntheticFrame
  dsimp only
  split
  · exact terminate_or h rfl
  · exact h

/-- The flags of a completed frame are the ones of the accumulator, and those
of its movement. -/
theorem frameRecord_terminate (f : FrameAccumulator) (timestampNs nowNs : UInt64)
    (h : f.flags &&& HFIOR_RECORD_TERMINATE = 0) :
    (frameRecord f timestampNs nowNs).has HFIOR_RECORD_TERMINATE = false := by
  rw [Record.has, bne_eq_false_iff_eq]
  exact terminate_or (terminate_or h (terminate_if _ rfl)) (terminate_if _ rfl)

namespace FramesCounted

variable {b : InputBridge} {attempts : List Attempt}

theorem takeEvent (h : FramesCounted b attempts) (e : InputEvent) :
    FramesCounted (takeEvent b e) attempts :=
  ⟨h.reports, accumulate_terminate e h.pending, h.unmarked⟩

theorem completeFrame (h : FramesCounted b attempts) (timestampNs : UInt64) (env : FrameEnv) :
    FramesCounted (completeFrame b timestampNs env).2
      (attempts ++ attemptsOf [(completeFrame b timestampNs env).1]) where
  reports := by
    show b.synReports + 1 = _
    simp [h.reports, attemptsOf]
  pending := UInt16.zero_and
  unmarked := by
    intro a ha
    rcases List.mem_append.1 ha with ha | ha
    · exact h.unmarked a ha
    · obtain rfl := List.mem_singleton.1 ha
      exact frameRecord_terminate b.frame timestampNs env.nowNs h.pending

theorem processInput (h : FramesCounted b attempts) (readings : List Reading) :
    FramesCounted (processInput b readings).2
      (attempts ++ attemptsOf (processInput b readings).1) := by
  induction readings generalizing b attempts with
  | nil =>
    simp only [Hfior.processInput, attemptsOf, List.map_nil, List.append_nil]
    exact h
  | cons reading readings ih =>
    have htaken := h.takeEvent reading.event
    rw [Hfior.processInput, processInputEvent]
    dsimp only
    by_cases hreport : reading.event.isReport = true
    · rw [if_pos hreport]
      have hnext := ih (htaken.completeFrame (timevalToNs reading.event.time) reading.env)
      simpa [attemptsOf] using hnext
    · rw [if_neg hreport]
      simpa [attemptsOf] using ih htaken

theorem emitRounds (h : FramesCounted b attempts) (clock : Nat → UInt64)
    (env : Nat → FrameEnv) (n : Nat) :
    FramesCounted (emitRounds b clock env n).2
      (attempts ++ attemptsOf (emitRounds b clock env n).1) := by
  induction n with
  | zero =>
    simp only [Hfior.emitRounds, attemptsOf, List.map_nil, List.append_nil]
    exact h
  | succ n ih =>
    simp only [Hfior.emitRounds, attemptsOf, List.map_append, List.map_singleton,
      ← List.append_assoc]
    refine FramesCounted.completeFrame ?_ _ _
    exact ⟨ih.reports, syntheticFrame_terminate _ _ ih.pending, ih.unmarked⟩

end FramesCounted

end Hfior
