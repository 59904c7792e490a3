import Hfior.Input.Calls

/-!
# The end of a session

`write_stats` prints the counters of the bridge and those of the ring.  They
were counted in different places, and `report_balances` says how they fit
together when the program has finished.

`terminate_is_last` is about the record in front of the report.  A consumer
that meets `HFIOR_RECORD_TERMINATE` has met the last record of the session,
and the flag is on no other record.
-/

namespace Hfior

/-! ## The input side of a lifetime -/

namespace FramesCounted

variable {b : InputBridge} {attempts : List Attempt}

/-- The operations below the input side. -/
theorem withBridge (h : FramesCounted b attempts) (c : Bridge) :
    FramesCounted { b with toBridge := c } attempts :=
  ⟨h.reports, h.pending, h.unmarked⟩

theorem serve (h : FramesCounted b attempts) (reads : List DeviceRead) (env : DeviceStateEnv) :
    FramesCounted (serveDevice b reads env).2
      (attempts ++ attemptsOf (serveDevice b reads env).1) := by
  have hprocessed := h.processInput (readingsRead reads)
  rw [← drainInputDevice_eq] at hprocessed
  simp only [serveDevice]
  split
  · exact hprocessed.withBridge _
  · exact hprocessed

theorem hangup (h : FramesCounted b attempts) (env : DeviceStateEnv) :
    FramesCounted (hangupDevice b env) attempts := by
  unfold hangupDevice
  split
  · exact h.withBridge _
  · exact h

theorem discard (h : FramesCounted b attempts) (reads : List DeviceRead)
    (keys : Option KeyBitmap) : FramesCounted (discardPendingInput b reads keys).2 attempts := by
  have hclean : FramesCounted { b with frame := cleanFrame 0 } attempts :=
    ⟨h.reports, UInt16.zero_and, h.unmarked⟩
  unfold discardPendingInput refreshButtonState
  split
  · exact h
  split
  · exact h
  split
  · exact hclean
  · exact ⟨h.reports, UInt16.zero_and, h.unmarked⟩

/-- In front of the terminal record. -/
theorem call (h : FramesCounted b attempts) (call : MainCall)
    (hcall : ∀ nowNs env urgent, call ≠ .terminal nowNs env urgent) :
    FramesCounted (b.call call).2 (attempts ++ attemptsOf (b.call call).1) := by
  have hquiet : attempts ++ attemptsOf [] = attempts := by simp [attemptsOf]
  cases call with
  | terminal nowNs env urgent => exact absurd rfl (hcall nowNs env urgent)
  | barrier | control | reconnect =>
    simp only [InputBridge.call, hquiet]
    exact h.withBridge _
  | discard reads keys =>
    simp only [InputBridge.call, hquiet]
    exact h.discard reads keys
  | device reads hangup gone hungUp =>
    cases reads with
    | none =>
      rw [← hquiet] at h
      cases hangup with
      | false => exact h
      | true => exact h.hangup hungUp
    | some reads =>
      have hserved := h.serve reads gone
      cases hangup with
      | false => exact hserved
      | true => exact hserved.hangup hungUp
  | synthetic expirations clock env => exact h.emitRounds clock env _

end FramesCounted

/-- The attempt behind the main loop, which stopped in this state. -/
structure IsTerminalAttempt (stop : Running) (last : Attempt) : Prop where
  flags : last.record.flags = HFIOR_RECORD_TERMINATE
  buttons : last.record.buttons = stop.bridge.frame.buttons
  published : last.published = !ringFull stop.bridge.ring.metadata.capacity
    stop.bridge.ring.producer.head stop.bridge.ring.consumer.tail

/-- The attempts of a lifetime: completed frames, and the terminal record at
the end. -/
structure LifetimeSession (s : Lifetime) : Prop where
  going : (∀ stop, s.stage ≠ .ended stop) →
    FramesCounted s.running.bridge s.running.attempts
  ended : ∀ stop, s.stage = .ended stop → FramesCounted stop.bridge stop.attempts ∧
    s.running.bridge.synReports = stop.bridge.synReports ∧
    ∃ last, s.running.attempts = stop.attempts ++ [last] ∧ IsTerminalAttempt stop last

theorem LifetimeSession.step {s t : Lifetime} {call : MainCall} (h : LifetimeSession s)
    (hstep : lifetimeMachine.step s call = some t) : LifetimeSession t := by
  obtain ⟨running, stage⟩ := t
  obtain ⟨hstage, hrunning⟩ := lifetimeMachine_step.1 hstep
  obtain ⟨-, rfl⟩ := mainMachine_step.1 hrunning
  cases hs : s.stage with
  | ended stop =>
    rw [hs] at hstage
    cases call with
    | control received nowNs urgent =>
      obtain rfl := Option.some.inj hstage
      refine ⟨fun hne => absurd rfl (hne stop), ?_⟩
      intro stop' hstop
      obtain rfl := MainStage.ended.inj hstop
      obtain ⟨hframes, hreports, last, hlast, hterminal⟩ := h.ended stop hs
      exact ⟨hframes, hreports, last, by simp [InputBridge.call, attemptsOf, hlast], hterminal⟩
    | _ => cases hstage
  | barrier | loop =>
    have hne : ∀ stop, s.stage ≠ .ended stop := by
      intro stop hstop
      rw [hs] at hstop
      cases hstop
    have hframes := h.going hne
    rw [hs] at hstage
    by_cases hcall : ∃ nowNs env urgent, call = .terminal nowNs env urgent
    · obtain ⟨nowNs, env, urgent, rfl⟩ := hcall
      obtain rfl := Option.some.inj hstage
      refine ⟨fun hne => absurd rfl (hne s.running), ?_⟩
      intro stop hstop
      obtain rfl := MainStage.ended.inj hstop
      refine ⟨hframes, ?_, (publishTerminal s.running.bridge nowNs env urgent).1.attempt, rfl,
        rfl, rfl, publishTerminal_published nowNs env urgent⟩
      cases urgent <;> rfl
    · have hgoing := hframes.call call
        fun nowNs env urgent heq => hcall ⟨nowNs, env, urgent, heq⟩
      refine ⟨fun _ => hgoing, ?_⟩
      intro stop hstop
      cases call with
      | terminal nowNs env urgent => exact absurd ⟨nowNs, env, urgent, rfl⟩ hcall
      | _ => rw [hstop] at hstage; cases hstage

/-- The attempts of a program. -/
theorem program_session {o : AdmittedOptions} {ops : DoubleOps} {ring : RingHeader}
    {clientFd inputFd : Int32} {steps : List ProgramStep} {p : Program}
    (hrun : (programMachine o ops).run (.boot o ring clientFd inputFd) steps = some p) :
    (p.isEnded = false → FramesCounted p.bridge p.attempts) ∧
    (p.isEnded = true → ∃ stop last, FramesCounted stop.bridge stop.attempts ∧
      p.bridge.synReports = stop.bridge.synReports ∧ p.attempts = stop.attempts ++ [last] ∧
      IsTerminalAttempt stop last) := by
  obtain ⟨source, ready, calls, s, hcalls, hrunning, hended⟩ := program_runs_calls hrun
  have hboot : LifetimeSession (.boot ((Program.boot o ring clientFd inputFd).bridge.withSource
      source ready)) :=
    ⟨fun _ => ⟨rfl, UInt16.zero_and, fun a ha => by cases ha⟩,
      fun stop hstop => absurd hstop (barrier_ne_ended stop)⟩
  have hs : LifetimeSession s :=
    Machine.run_invariant LifetimeSession (fun _ _ _ h => h.step) hboot hcalls
  rw [← hended]
  cases hstage : s.stage with
  | barrier =>
    refine ⟨fun _ => ?_, fun h => (by cases h)⟩
    have hgoing := hs.going fun stop => hstage ▸ barrier_ne_ended stop
    rwa [hrunning] at hgoing
  | loop =>
    refine ⟨fun _ => ?_, fun h => (by cases h)⟩
    have hgoing := hs.going fun stop => hstage ▸ loop_ne_ended stop
    rwa [hrunning] at hgoing
  | ended stop =>
    refine ⟨fun h => (by cases h), fun _ => ?_⟩
    obtain ⟨hframes, hreports, last, hlast, hterminal⟩ := hs.ended stop hstage
    rw [hrunning] at hreports hlast
    exact ⟨stop, last, hframes, hreports, hlast, hterminal⟩

/-! ## The ledgers and the ring of a program -/

/-- No ledger counts the source. -/
theorem ledgersAgree_source {config : BridgeConfig} {ring : RingHeader}
    {clientFd inputFd : Int32} (h : LedgersAgree (.boot config ring clientFd inputFd) [])
    (ready : Bool) :
    LedgersAgree { Bridge.boot config ring clientFd inputFd with sourceReady := ready } [] :=
  { h with }

theorem ledgersAgree_program {size features nowNs : UInt64} {device : DeviceIdentity}
    {o : AdmittedOptions} {ops : DoubleOps} {ring : RingHeader} {clientFd inputFd : Int32}
    (hinit : initializeMapping size o.capacity features device 1 nowNs = .ok ring)
    (hopen : o.config.devicePath = true → 0 ≤ inputFd) {steps : List ProgramStep} {p : Program}
    (hrun : (programMachine o ops).run (.boot o ring clientFd inputFd) steps = some p)
    (hlt : p.attempts.length + 1 < 2 ^ 64) : LedgersAgree p.bridge.toBridge p.attempts := by
  obtain ⟨source, ready, calls, s, hcalls, hrunning, -⟩ := program_runs_calls hrun
  have hboot : LedgersAgree { Bridge.boot o.config ring clientFd inputFd with
      sourceReady := ready } [] := ledgersAgree_source (ledgersAgree_boot hinit hopen) ready
  have hmono : ∀ s call t, lifetimeMachine.step s call = some t →
      s.running.attempts.length + 1 ≤ t.running.attempts.length + 1 := by
    intro s call t hstep
    obtain ⟨-, hnext⟩ := mainMachine_step.1 (lifetimeMachine_step.1 hstep).2
    rw [hnext]
    simp
  have hkeep : ∀ s call t, LedgersAgree s.running.bridge.toBridge s.running.attempts →
      t.running.attempts.length + 1 < 2 ^ 64 → lifetimeMachine.step s call = some t →
      LedgersAgree t.running.bridge.toBridge t.running.attempts := by
    intro s call t h ht hstep
    obtain ⟨hready, hnext⟩ := mainMachine_step.1 (lifetimeMachine_step.1 hstep).2
    rw [hnext] at ht ⊢
    exact h.call call hready ht
  have hs : LedgersAgree s.running.bridge.toBridge s.running.attempts :=
    Machine.run_invariant_below
      (fun s : Lifetime => LedgersAgree s.running.bridge.toBridge s.running.attempts)
      (fun s => s.running.attempts.length + 1) hmono hkeep hboot hcalls (by rwa [hrunning])
  rwa [hrunning] at hs

theorem ringRepresents_program {size features nowNs : UInt64} {device : DeviceIdentity}
    {o : AdmittedOptions} {ops : DoubleOps} {ring : RingHeader} {clientFd inputFd : Int32}
    (hinit : initializeMapping size o.capacity features device 1 nowNs = .ok ring)
    {steps : List ProgramStep} {p : Program}
    (hrun : (programMachine o ops).run (.boot o ring clientFd inputFd) steps = some p)
    (hlt : p.attempts.length + 1 < 2 ^ 64) :
    RingRepresents o.capacity p.bridge.toBridge p.attempts := by
  obtain ⟨hring, hcapacity, -⟩ := represents_initializeMapping hinit
  exact (ringRepresents_kept o.capacity).program (fun _ => ⟨hring, hcapacity⟩) hrun (by omega)

/-! ## The terminal record -/

/-- In every run of the program with fewer than 2^64 - 1 attempts, a record with
`HFIOR_RECORD_TERMINATE` that the ring has accepted is the record in front of
the head, it has the number of the last attempt, and the program has left its
main loop. -/
theorem terminate_is_last {size features nowNs : UInt64} {device : DeviceIdentity}
    {o : AdmittedOptions} {ops : DoubleOps} {ring : RingHeader} {clientFd inputFd : Int32}
    (hinit : initializeMapping size o.capacity features device 1 nowNs = .ok ring)
    (hopen : o.config.devicePath = true → 0 ≤ inputFd) {steps : List ProgramStep} {p : Program}
    (hrun : (programMachine o ops).run (.boot o ring clientFd inputFd) steps = some p)
    (hlt : p.attempts.length + 1 < 2 ^ 64) {position : Nat} {record : Record}
    (hrecord : (acceptedRecords p.attempts)[position]? = some record)
    (hterminate : record.has HFIOR_RECORD_TERMINATE = true) :
    position + 1 = p.bridge.ring.producer.head.toNat ∧
    record.sequence = p.bridge.stats.recordsAttempted ∧
    p.isEnded = true := by
  have hledgers := ledgersAgree_program hinit hopen hrun hlt
  obtain ⟨before, after, hattempts, hposition, -⟩ := hledgers.position hrecord
  obtain ⟨hgoing, hended⟩ := program_session hrun
  have hmarked : ∀ attempts : List Attempt, ⟨record, true⟩ ∈ attempts →
      ¬ ∀ a ∈ attempts, a.record.has HFIOR_RECORD_TERMINATE = false := by
    intro attempts hmem hunmarked
    have hfalse := hunmarked _ hmem
    rw [hterminate] at hfalse
    cases hfalse
  cases hend : p.isEnded with
  | false =>
    refine absurd (hgoing hend).unmarked (hmarked _ ?_)
    rw [hattempts]
    exact List.mem_append_right _ List.mem_cons_self
  | true =>
    obtain ⟨stop, last, hframes, -, hlast, -⟩ := hended hend
    -- A marked attempt in front of the last one would be a frame.
    have hafter : after = [] := by
      by_contra hne
      have hstop : stop.attempts = before ++ (⟨record, true⟩ :: after).dropLast := by
        rw [← List.dropLast_append_of_ne_nil (List.cons_ne_nil _ _), ← hattempts, hlast,
          List.dropLast_concat]
      refine hmarked stop.attempts ?_ hframes.unmarked
      rw [hstop, List.dropLast_cons_of_ne_nil hne]
      exact List.mem_append_right _ List.mem_cons_self
    rw [hafter] at hattempts
    have haccepted : acceptedRecords p.attempts = acceptedRecords before ++ [record] := by
      rw [hattempts]
      exact acceptedRecords_append_of_published rfl
    have hlength : p.attempts.length = before.length + 1 := by
      rw [hattempts, List.length_append, List.length_singleton]
    have hsequence := hledgers.numbered.sequence before.length (by omega)
    simp only [hattempts, List.getElem_append_right (Nat.le_refl _), Nat.sub_self,
      List.getElem_cons_zero] at hsequence
    refine ⟨?_, ?_, rfl⟩
    · rw [hledgers.head, haccepted, List.length_append, List.length_singleton, hposition]
    · rw [← UInt64.toNat_inj, hsequence, hledgers.attempted, hlength]

theorem terminate_is_last_device :
    ∃ p record, (programMachine deviceOptions .exact).run
        (.boot deviceOptions (freshBridge 64).ring 5 6) deviceSteps = some p ∧
      (acceptedRecords p.attempts)[1]? = some record ∧
      record.has HFIOR_RECORD_TERMINATE = true ∧
      1 + 1 = p.bridge.ring.producer.head.toNat ∧
      record.sequence = p.bridge.stats.recordsAttempted ∧ p.isEnded = true := by
  have hinit : initializeMapping (mappingSize 64) deviceOptions.capacity 0 ⟨[], 0, 0, 0, 0⟩ 1 0 =
      .ok (freshBridge 64).ring := rfl
  have hrun : (programMachine deviceOptions .exact).run
      (.boot deviceOptions (freshBridge 64).ring 5 6) deviceSteps = some _ := rfl
  have hopen : deviceOptions.config.devicePath = true → (0 : Int32) ≤ 6 := by decide
  exact ⟨_, _, hrun, rfl, rfl, terminate_is_last hinit hopen hrun (by decide) rfl rfl⟩

/-! ## The report -/

/-- The counters that `write_stats` prints. -/
structure BridgeReport where
  evidenceClass : String
  mode : UInt32
  inputEvents : UInt64
  synReports : UInt64
  recordsAttempted : UInt64
  recordsPublished : UInt64
  ringDrops : UInt64
  eagerPacketsSent : UInt64
  eagerSendDrops : UInt64
  urgentWrites : UInt64
  buttonTransitions : UInt64
  deviceDisconnects : UInt64
  deviceReconnects : UInt64
  controlMessages : UInt64
  malformedMessages : UInt64
  acknowledgements : UInt64
  invalidAcknowledgements : UInt64
  generation : UInt64
  ringHead : UInt64
  ringTail : UInt64
  ringDepth : UInt64
  ringDroppedCounter : UInt64
  eagerDropCounter : UInt64
deriving DecidableEq, Repr

/-- `write_stats`. -/
def writeStats (o : BridgeOptions) (b : InputBridge) : BridgeReport where
  evidenceClass :=
    if o.syntheticRateHz != 0 then "synthetic-transport-validation" else "physical-evdev"
  mode := b.mode
  inputEvents := b.inputEvents
  synReports := b.synReports
  recordsAttempted := b.stats.recordsAttempted
  recordsPublished := b.stats.recordsPublished
  ringDrops := b.stats.ringDrops
  eagerPacketsSent := b.stats.eagerPacketsSent
  eagerSendDrops := b.stats.eagerSendDrops
  urgentWrites := b.stats.urgentWrites
  buttonTransitions := b.stats.buttonTransitions
  deviceDisconnects := b.stats.deviceDisconnects
  deviceReconnects := b.stats.deviceReconnects
  controlMessages := b.stats.controlMessages
  malformedMessages := b.stats.malformedMessages
  acknowledgements := b.stats.acknowledgements
  invalidAcknowledgements := b.stats.invalidAcknowledgements
  generation := b.generation
  ringHead := b.ring.producer.head
  ringTail := b.ring.consumer.tail
  ringDepth := ringDepth b.ring
  ringDroppedCounter := b.ring.producer.droppedNewest
  eagerDropCounter := b.ring.producer.eagerSendDrops

/-- The counters of a report fit together, and they count these attempts. -/
structure ReportBalances (r : BridgeReport) (capacity : UInt32) (attempts : List Attempt) :
    Prop where
  attempted : r.recordsAttempted.toNat = attempts.length
  published : r.recordsPublished.toNat = (acceptedRecords attempts).length
  /-- All attempts but the terminal one are reports. -/
  reports : r.recordsAttempted = r.synReports + 1
  split : r.recordsAttempted.toNat = r.recordsPublished.toNat + r.ringDrops.toNat
  head : r.ringHead = r.recordsPublished
  droppedCounter : r.ringDroppedCounter = r.ringDrops
  eagerCounter : r.eagerDropCounter = r.eagerSendDrops
  depth : r.ringTail.toNat + r.ringDepth.toNat = r.ringHead.toNat
  bounded : r.ringDepth.toNat ≤ capacity.toNat
  transitions : r.buttonTransitions.toNat =
    (acceptedRecords attempts).countP (·.has HFIOR_RECORD_BUTTON)
  generation : r.generation = 1 + r.deviceReconnects
  /-- The device is lost at the end, or every loss was repaired. -/
  lost : r.deviceDisconnects = r.deviceReconnects ∨
    r.deviceDisconnects = r.deviceReconnects + 1

/-- The report of every finished program with fewer than 2^64 - 1 attempts
balances. -/
theorem report_balances {size features nowNs : UInt64} {device : DeviceIdentity}
    {o : AdmittedOptions} {ops : DoubleOps} {ring : RingHeader} {clientFd inputFd : Int32}
    (hinit : initializeMapping size o.capacity features device 1 nowNs = .ok ring)
    (hopen : o.config.devicePath = true → 0 ≤ inputFd) {steps : List ProgramStep} {p : Program}
    (hrun : (programMachine o ops).run (.boot o ring clientFd inputFd) steps = some p)
    (hlt : p.attempts.length + 1 < 2 ^ 64) (hfinished : p.stage = .finished) :
    ReportBalances (writeStats o.toBridgeOptions p.bridge) o.capacity p.attempts := by
  have hledgers := ledgersAgree_program hinit hopen hrun hlt
  obtain ⟨hring, hcapacity⟩ := ringRepresents_program hinit hrun hlt
  have hended : p.isEnded = true := by
    rw [Program.isEnded, hfinished]
  obtain ⟨stop, last, hframes, hreports, hlast, -⟩ := (program_session hrun).2 hended
  have hlength : p.attempts.length = stop.attempts.length + 1 := by
    rw [hlast, List.length_append, List.length_singleton]
  have hdepth : (ringDepth p.bridge.ring).toNat = p.bridge.ring.producer.head.toNat -
      p.bridge.ring.consumer.tail.toNat := UInt64.toNat_sub_of_le _ _ hring.tail_le_head
  have hle : p.bridge.ring.consumer.tail.toNat ≤ p.bridge.ring.producer.head.toNat :=
    UInt64.le_iff_toNat_le.1 hring.tail_le_head
  have hbound := hring.le_tail
  rw [← hring.head, hcapacity] at hbound
  constructor
  case attempted => exact hledgers.attempted
  case published =>
    show p.bridge.stats.recordsPublished.toNat = _
    rw [hledgers.published, hledgers.head]
  case reports =>
    show p.bridge.stats.recordsAttempted = p.bridge.synReports + 1
    have hattempted : UInt64.ofNat p.attempts.length = p.bridge.stats.recordsAttempted := by
      rw [← hledgers.attempted, UInt64.ofNat_toNat]
    rw [hreports, hframes.reports, ← hattempted, hlength, UInt64.ofNat_add]
    rfl
  case split =>
    show p.bridge.stats.recordsAttempted.toNat =
      p.bridge.stats.recordsPublished.toNat + p.bridge.stats.ringDrops.toNat
    rw [hledgers.published, hledgers.ringDrops, hledgers.sequence_eq.2]
  case head => exact hledgers.published.symm
  case droppedCounter => exact hledgers.ringDrops.symm
  case eagerCounter => exact hledgers.eagerDrops.symm
  case depth =>
    show p.bridge.ring.consumer.tail.toNat + (ringDepth p.bridge.ring).toNat =
      p.bridge.ring.producer.head.toNat
    omega
  case bounded =>
    show (ringDepth p.bridge.ring).toNat ≤ o.capacity.toNat
    omega
  case transitions =>
    show p.bridge.stats.buttonTransitions.toNat = _
    rw [hledgers.transitions, hledgers.button]
  case generation => exact hledgers.reconnected
  case lost =>
    show p.bridge.stats.deviceDisconnects = p.bridge.stats.deviceReconnects ∨
      p.bridge.stats.deviceDisconnects = p.bridge.stats.deviceReconnects + 1
    rw [← UInt64.sub_add_cancel p.bridge.stats.deviceDisconnects
      p.bridge.stats.deviceReconnects, hledgers.gone]
    split
    · exact .inr (UInt64.add_comm _ _)
    · exact .inl (UInt64.zero_add _)

theorem report_balances_device :
    ∃ p, (programMachine deviceOptions .exact).run
        (.boot deviceOptions (freshBridge 64).ring 5 6) deviceSteps = some p ∧
      (writeStats deviceOptions.toBridgeOptions p.bridge).deviceReconnects = 1 ∧
      ReportBalances (writeStats deviceOptions.toBridgeOptions p.bridge) 64 p.attempts := by
  have hinit : initializeMapping (mappingSize 64) deviceOptions.capacity 0 ⟨[], 0, 0, 0, 0⟩ 1 0 =
      .ok (freshBridge 64).ring := rfl
  have hrun : (programMachine deviceOptions .exact).run
      (.boot deviceOptions (freshBridge 64).ring 5 6) deviceSteps = some _ := rfl
  have hopen : deviceOptions.config.devicePath = true → (0 : Int32) ≤ 6 := by decide
  exact ⟨_, hrun, rfl, report_balances hinit hopen hrun (by decide) rfl⟩

end Hfior
