import Hfior.Input.Buttons
import Hfior.Input.Generations
import Hfior.Input.Ledgers
import Mathlib.Data.List.Chain

/-!
# Announced button changes

A record carries the button mask, and the flag `HFIOR_RECORD_BUTTON` if the
mask has changed.  A consumer that looks only at the flag sees every change
if a record whose mask differs from the one before it has the flag.

`lifetimeMachine` is the main loop in its order: the start barrier, the loop,
the terminal record, and the messages behind it.  Between two frames the
accumulator has the mask of the last attempt, or it has the flag
(`MaskTracked`).  A completed frame and a synthetic one carry the flag of the
accumulator, and the terminal record does not.

`button_changes_announced_iff` is the result: the law holds if and only if
the terminal record finds the mask of the last attempt, or one of the two is
dropped.
-/

namespace Hfior

open BitMask

/-! ## The order of the calls -/

/-- Where `main` is. -/
inductive MainStage where
  | barrier
  | loop
  /-- Behind the terminal record, which was published in the state `stop`. -/
  | ended (stop : Running)

/-- The stage behind a call, if the call may come in this stage. -/
def MainStage.next (s : Running) : MainStage → MainCall → Option MainStage
  | .ended stop, .control _ _ _ => some (.ended stop)
  | .ended _, _ => none
  | .barrier, .barrier _ _ _ _ | .barrier, .discard _ _ => some .barrier
  | .loop, .barrier _ _ _ _ | .loop, .discard _ _ => none
  | _, .terminal _ _ _ => some (.ended s)
  | _, _ => some .loop

structure Lifetime where
  running : Running
  stage : MainStage

/-- The process, from the start barrier on. -/
def lifetimeMachine : Machine Lifetime MainCall where
  step s call := do
    let stage ← s.stage.next s.running call
    let running ← mainMachine.step s.running call
    some ⟨running, stage⟩

/-- The process in front of its start barrier. -/
def Lifetime.boot (b : InputBridge) : Lifetime := ⟨⟨b, []⟩, .barrier⟩

theorem lifetimeMachine_step {s t : Lifetime} {call : MainCall} :
    lifetimeMachine.step s call = some t ↔
      s.stage.next s.running call = some t.stage ∧
        mainMachine.step s.running call = some t.running := by
  obtain ⟨running, stage⟩ := t
  simp only [lifetimeMachine, Option.bind_eq_bind, Option.bind_eq_some_iff,
    Option.some.injEq, Lifetime.mk.injEq]
  constructor
  · rintro ⟨stage, hstage, running, hrunning, rfl, rfl⟩
    exact ⟨hstage, hrunning⟩
  · rintro ⟨hstage, hrunning⟩
    exact ⟨stage, hstage, running, hrunning, rfl, rfl⟩

theorem barrier_ne_ended (stop : Running) : MainStage.barrier ≠ .ended stop := by
  intro h
  cases h

theorem loop_ne_ended (stop : Running) : MainStage.loop ≠ .ended stop := by
  intro h
  cases h

/-- What a call can do to the stage: a message behind the terminal record, the
start barrier, the terminal record, or the loop. -/
theorem next_cases {s : Running} {stage stage' : MainStage} {call : MainCall}
    (h : stage.next s call = some stage') :
    (∃ stop, stage = .ended stop ∧ stage' = .ended stop ∧ (s.bridge.call call).1 = []) ∨
    (stage = .barrier ∧ stage' = .barrier ∧ (s.bridge.call call).1 = []) ∨
    ((∀ stop, stage ≠ .ended stop) ∧ ∃ nowNs env urgent,
      call = .terminal nowNs env urgent ∧ stage' = .ended s) ∨
    (∀ stop, stage ≠ .ended stop) ∧ stage' = .loop ∧
      MainStage.next s .loop call = some .loop := by
  cases stage with
  | ended stop =>
    cases call with
    | control received nowNs urgent =>
      obtain rfl := Option.some.inj h
      exact .inl ⟨stop, rfl, rfl, by simp only [InputBridge.call]⟩
    | _ => cases h
  | barrier =>
    cases call with
    | barrier | discard =>
      obtain rfl := Option.some.inj h
      exact .inr (.inl ⟨rfl, rfl, by simp only [InputBridge.call]⟩)
    | terminal nowNs env urgent =>
      obtain rfl := Option.some.inj h
      exact .inr (.inr (.inl ⟨barrier_ne_ended, nowNs, env, urgent, rfl, rfl⟩))
    | device | synthetic | control | reconnect =>
      obtain rfl := Option.some.inj h
      exact .inr (.inr (.inr ⟨barrier_ne_ended, rfl, rfl⟩))
  | loop =>
    cases call with
    | barrier | discard => cases h
    | terminal nowNs env urgent =>
      obtain rfl := Option.some.inj h
      exact .inr (.inr (.inl ⟨loop_ne_ended, nowNs, env, urgent, rfl, rfl⟩))
    | device | synthetic | control | reconnect =>
      obtain rfl := Option.some.inj h
      exact .inr (.inr (.inr ⟨loop_ne_ended, rfl, rfl⟩))

/-! ## The law -/

/-- A record whose mask differs from the one before it has the flag. -/
def Announces (before after : Record) : Prop :=
  before.buttons ≠ after.buttons → after.has HFIOR_RECORD_BUTTON = true

instance (before after : Record) : Decidable (Announces before after) :=
  show Decidable (_ → _) from inferInstance

/-- Every change of the mask between consecutive numbers is announced. -/
def ButtonsAnnounced (records : List Record) : Prop :=
  ∀ x ∈ records, ∀ y ∈ records, y.sequence = x.sequence + 1 → Announces x y

instance (records : List Record) : Decidable (ButtonsAnnounced records) :=
  show Decidable (∀ x ∈ records, _) from inferInstance

/-- The terminal record finds the mask of the last attempt, or one of the two
is dropped. -/
def TerminalAnnounced (s : Running) : Prop :=
  ∀ a ∈ s.attempts.getLast?, a.published = true →
    ringFull s.bridge.ring.metadata.capacity s.bridge.ring.producer.head
      s.bridge.ring.consumer.tail = false →
    a.record.buttons = s.bridge.frame.buttons

/-- The law between an attempt and the next one. -/
def AttemptAnnounces (before after : Attempt) : Prop :=
  before.published = true → after.published = true →
    Announces before.record after.record

/-- Records with consecutive numbers are consecutive attempts. -/
theorem buttonsAnnounced_iff {r : RingHeader} {attempts : List Attempt}
    (h : Numbered r attempts) (hlt : attempts.length < 2 ^ 64) :
    ButtonsAnnounced (acceptedRecords attempts) ↔
      attempts.IsChain AttemptAnnounces := by
  have hmem : ∀ {i : Nat} (hi : i < attempts.length), attempts[i].published = true →
      attempts[i].record ∈ acceptedRecords attempts := by
    intro i hi hpublished
    exact List.mem_map_of_mem (List.mem_filter.2 ⟨List.getElem_mem hi, hpublished⟩)
  rw [List.isChain_iff_getElem]
  constructor
  · intro hlaw i hi hbefore hafter
    refine hlaw _ (hmem (by omega) hbefore) _ (hmem hi hafter) ?_
    rw [← UInt64.toNat_inj, UInt64.toNat_add, UInt64.toNat_one, h.sequence, h.sequence]
    omega
  · intro hchain x hx y hy hnext
    obtain ⟨a, ha, rfl⟩ := List.mem_map.1 hx
    obtain ⟨a', ha', rfl⟩ := List.mem_map.1 hy
    obtain ⟨hin, hpublished⟩ := List.mem_filter.1 ha
    obtain ⟨hin', hpublished'⟩ := List.mem_filter.1 ha'
    obtain ⟨i, hi, rfl⟩ := List.mem_iff_getElem.1 hin
    obtain ⟨j, hj, rfl⟩ := List.mem_iff_getElem.1 hin'
    have hnumber := congrArg UInt64.toNat hnext
    rw [UInt64.toNat_add, UInt64.toNat_one, h.sequence, h.sequence] at hnumber
    obtain rfl : j = i + 1 := by omega
    exact hchain i hj hpublished hpublished'

/-! ## The mask of the accumulator -/

/-- A flag that is set stays set. -/
theorem has_or_of_has {x y m : UInt16} (h : x &&& m ≠ 0) : (x ||| y) &&& m ≠ 0 := by
  rw [or_and, ne_eq, UInt16.or_eq_zero_iff]
  exact fun hzero => h hzero.1

/-- No event clears the flag. -/
theorem accumulate_keeps_flag {f : FrameAccumulator} (e : InputEvent)
    (h : f.flags &&& HFIOR_RECORD_BUTTON ≠ 0) :
    (accumulate f e).flags &&& HFIOR_RECORD_BUTTON ≠ 0 := by
  obtain ⟨t, hstamp⟩ := stampFrame_frame f (timevalToNs e.time)
  unfold accumulate
  rw [hstamp]
  dsimp only
  split
  · rw [(accumulateRel_frame _ _ _).2.1]
    exact h
  split
  · rw [accumulateKey_eq]
    exact has_or_of_has h
  split
  · exact has_or_of_has h
  · exact h

/-- The attempts are announced so far, and the accumulator has the mask of
the last one, or it has the flag. -/
structure MaskTracked (f : FrameAccumulator) (attempts : List Attempt) : Prop where
  announced : attempts.IsChain AttemptAnnounces
  pending : ∀ a ∈ attempts.getLast?, a.record.buttons ≠ f.buttons →
    f.flags &&& HFIOR_RECORD_BUTTON ≠ 0

/-- An accumulator that is derived from another one keeps the flag, and has
it if the mask changes. -/
structure MaskFollows (f f' : FrameAccumulator) : Prop where
  keeps : f.flags &&& HFIOR_RECORD_BUTTON ≠ 0 → f'.flags &&& HFIOR_RECORD_BUTTON ≠ 0
  changes : f.buttons ≠ f'.buttons → f'.flags &&& HFIOR_RECORD_BUTTON ≠ 0

theorem maskFollows_accumulate (f : FrameAccumulator) (e : InputEvent) :
    MaskFollows f (accumulate f e) where
  keeps := accumulate_keeps_flag e
  changes := by
    intro hchange
    apply accumulate_transition
    rw [← accumulate_buttons]
    exact hchange.symm

/-- A synthetic frame flags its toggle. -/
theorem maskFollows_syntheticFrame (f : FrameAccumulator) (source : SyntheticSource) :
    MaskFollows f (syntheticFrame f source) := by
  unfold syntheticFrame
  dsimp only
  split
  · have hflag : (f.flags ||| HFIOR_RECORD_BUTTON) &&& HFIOR_RECORD_BUTTON ≠ 0 := by
      rw [or_and_self]
      decide
    exact ⟨fun _ => hflag, fun _ => hflag⟩
  · exact ⟨id, fun hchange => absurd rfl hchange⟩

namespace MaskTracked

variable {b : InputBridge} {f f' : FrameAccumulator} {attempts : List Attempt}

theorem follow (h : MaskTracked f attempts) (hf : MaskFollows f f') :
    MaskTracked f' attempts where
  announced := h.announced
  pending := by
    intro a ha hne
    by_cases hsame : a.record.buttons = f.buttons
    · exact hf.changes (hsame ▸ hne)
    · exact hf.keeps (h.pending a ha hsame)

/-- A completed frame is announced. -/
theorem completeFrame (h : MaskTracked b.frame attempts) (timestampNs : UInt64)
    (env : FrameEnv) :
    MaskTracked (completeFrame b timestampNs env).2.frame
      (attempts ++ [(completeFrame b timestampNs env).1.attempt]) where
  announced := by
    refine h.announced.append (.singleton _) ?_
    intro a ha a' ha' _ _ hne
    obtain rfl := Option.some.inj ha'
    have hflags : (Hfior.completeFrame b timestampNs env).1.attempt.record.flags =
        (frameRecord b.frame timestampNs env.nowNs).flags := rfl
    rw [Record.has, bne_iff_ne, hflags, frameRecord, flagMotion]
    exact has_or_of_has (has_or_of_has (h.pending a ha hne))
  pending := by
    intro a ha hne
    rw [List.getLast?_concat] at ha
    obtain rfl := Option.some.inj ha
    exact absurd rfl hne

theorem processInput (h : MaskTracked b.frame attempts) (readings : List Reading) :
    MaskTracked (processInput b readings).2.frame
      (attempts ++ attemptsOf (processInput b readings).1) := by
  induction readings generalizing b attempts with
  | nil =>
    simp only [Hfior.processInput, attemptsOf, List.map_nil, List.append_nil]
    exact h
  | cons reading readings ih =>
    have htaken : MaskTracked (takeEvent b reading.event).frame attempts :=
      h.follow (maskFollows_accumulate _ _)
    rw [Hfior.processInput, processInputEvent]
    dsimp only
    by_cases hreport : reading.event.isReport = true
    · rw [if_pos hreport]
      have hnext := ih (htaken.completeFrame (timevalToNs reading.event.time) reading.env)
      simpa [attemptsOf] using hnext
    · rw [if_neg hreport]
      simpa [attemptsOf] using ih htaken

theorem emitRounds (h : MaskTracked b.frame attempts) (clock : Nat → UInt64)
    (env : Nat → FrameEnv) (n : Nat) :
    MaskTracked (emitRounds b clock env n).2.frame
      (attempts ++ attemptsOf (emitRounds b clock env n).1) := by
  induction n with
  | zero =>
    simp only [Hfior.emitRounds, attemptsOf, List.map_nil, List.append_nil]
    exact h
  | succ n ih =>
    simp only [Hfior.emitRounds, attemptsOf, List.map_append, List.map_singleton,
      ← List.append_assoc]
    apply MaskTracked.completeFrame
    exact ih.follow (maskFollows_syntheticFrame _ _)

end MaskTracked

/-! ## The terminal record -/

/-- A publish returns true if the ring is not full. -/
theorem ringPublish_fst (r : RingHeader) (record : Record) : (ringPublish r record).1 =
    !ringFull r.metadata.capacity r.producer.head r.consumer.tail := by
  unfold ringPublish
  dsimp only
  split
  · rename_i hfull
    rw [hfull]
    rfl
  · rename_i hroom
    rw [Bool.not_eq_true] at hroom
    rw [hroom]
    rfl

section
variable {b : InputBridge} {attempts : List Attempt} (nowNs : UInt64) (env : PublishEnv)
  (urgent : IoResult)

/-- The terminal record is accepted if the ring is not full. -/
theorem publishTerminal_published :
    (publishTerminal b nowNs env urgent).1.attempt.published =
      !ringFull b.ring.metadata.capacity b.ring.producer.head b.ring.consumer.tail :=
  ringPublish_fst (allocateSequence b.ring env.beginNs) _

/-- The terminal record has the mask of the accumulator, and not the flag. -/
theorem publishTerminal_mask :
    (publishTerminal b nowNs env urgent).1.attempt.record.buttons = b.frame.buttons ∧
      (publishTerminal b nowNs env urgent).1.attempt.record.has HFIOR_RECORD_BUTTON =
        false := by
  refine ⟨rfl, ?_⟩
  show (HFIOR_RECORD_TERMINATE &&& HFIOR_RECORD_BUTTON != 0) = false
  decide

/-- So it is announced if its mask is the one of the last attempt. -/
theorem MaskTracked.terminal (h : MaskTracked b.frame attempts) :
    (attempts ++ [(publishTerminal b nowNs env urgent).1.attempt]).IsChain
        AttemptAnnounces ↔ TerminalAnnounced ⟨b, attempts⟩ := by
  have hpublished := publishTerminal_published (b := b) nowNs env urgent
  obtain ⟨hbuttons, hflag⟩ := publishTerminal_mask (b := b) nowNs env urgent
  generalize (publishTerminal b nowNs env urgent).1.attempt = last at hpublished hbuttons hflag ⊢
  rw [List.isChain_append]
  constructor
  · rintro ⟨-, -, hchain⟩ a ha hbefore hroom
    by_contra hne
    have hlast : last.published = true := by
      rw [hpublished, hroom]
      rfl
    have hannounced := hchain a ha last rfl hbefore hlast (by rw [hbuttons]; exact hne)
    rw [hflag] at hannounced
    cases hannounced
  · intro hterminal
    refine ⟨h.announced, .singleton _, ?_⟩
    intro a ha a' ha' hbefore hafter hne
    obtain rfl := Option.some.inj ha'
    have hroom := hpublished.symm.trans hafter
    rw [Bool.not_eq_true'] at hroom
    rw [hbuttons] at hne
    exact absurd (hterminal a ha hbefore hroom) hne

end

/-! ## The run -/

/-- The invariant of the process. -/
structure LifetimeInv (s : Lifetime) : Prop where
  ledgers : LedgersAgree s.running.bridge.toBridge s.running.attempts
  barrier : s.stage = .barrier → s.running.attempts = []
  loop : s.stage = .loop → MaskTracked s.running.bridge.frame s.running.attempts
  ended : ∀ stop, s.stage = .ended stop →
    (s.running.attempts.IsChain AttemptAnnounces ↔ TerminalAnnounced stop)

namespace LifetimeInv

variable {s t : Lifetime}

/-- Before the terminal record the mask is tracked. -/
theorem tracked (h : LifetimeInv s) (hstage : ∀ stop, s.stage ≠ .ended stop) :
    MaskTracked s.running.bridge.frame s.running.attempts := by
  cases hs : s.stage with
  | barrier =>
    rw [h.barrier hs]
    exact ⟨.nil, fun a ha => by cases ha⟩
  | loop => exact h.loop hs
  | ended stop => exact absurd hs (hstage stop)

/-- Every call of the loop tracks the mask. -/
theorem tracked_call {b : InputBridge} {attempts : List Attempt}
    (h : MaskTracked b.frame attempts) {call : MainCall} {s : Running}
    (hnext : MainStage.next s .loop call = some .loop) :
    MaskTracked (b.call call).2.frame (attempts ++ attemptsOf (b.call call).1) := by
  have hquiet : attempts ++ attemptsOf [] = attempts := by simp [attemptsOf]
  cases call with
  | device reads hangup gone hungUp =>
    obtain ⟨hpublications, hframe, -⟩ := call_poll b reads hangup gone hungUp
    rw [hpublications, hframe]
    exact h.processInput _
  | synthetic expirations clock env => exact h.emitRounds clock env _
  | control received nowNs urgent | reconnect fd env =>
    simp only [InputBridge.call, hquiet]
    exact h
  | barrier | discard | terminal => cases hnext

theorem step (h : LifetimeInv s) {call : MainCall}
    (hstep : lifetimeMachine.step s call = some t)
    (hlt : t.running.attempts.length + 1 < 2 ^ 64) : LifetimeInv t := by
  obtain ⟨running, stage⟩ := t
  obtain ⟨hstage, hrunning⟩ := lifetimeMachine_step.1 hstep
  obtain ⟨hready, rfl⟩ := mainMachine_step.1 hrunning
  have hledgers := h.ledgers.call call hready hlt
  have hquiet : s.running.attempts ++ attemptsOf [] = s.running.attempts := by
    simp [attemptsOf]
  rcases next_cases hstage with ⟨stop, hs, rfl, hnone⟩ |
    ⟨hs, rfl, hnone⟩ | ⟨hs, nowNs, env, urgent, rfl, rfl⟩ | ⟨hs, rfl, hnext⟩
  · refine ⟨hledgers, fun h => (by cases h), fun h => (by cases h), ?_⟩
    intro stop' hstop
    cases hstop
    simp only [hnone, hquiet]
    exact h.ended stop hs
  · refine ⟨hledgers, fun _ => ?_, fun h => (by cases h),
      fun stop hs => absurd hs (barrier_ne_ended stop)⟩
    simp only [hnone, hquiet]
    exact h.barrier hs
  · refine ⟨hledgers, fun h => (by cases h), fun h => (by cases h), ?_⟩
    intro stop hstop
    cases hstop
    exact (h.tracked hs).terminal nowNs env urgent
  · exact ⟨hledgers, fun h => (by cases h), fun _ => tracked_call (h.tracked hs) hnext,
      fun stop hs => absurd hs (loop_ne_ended stop)⟩

/-- The law, in every state. -/
theorem announced_iff (h : LifetimeInv s) (hlt : s.running.attempts.length + 1 < 2 ^ 64) :
    ButtonsAnnounced (acceptedRecords s.running.attempts) ↔
      ∀ stop, s.stage = .ended stop → TerminalAnnounced stop := by
  rw [buttonsAnnounced_iff h.ledgers.numbered (by omega)]
  constructor
  · intro hchain stop hs
    exact (h.ended stop hs).1 hchain
  · intro hterminal
    by_cases hended : ∃ stop, s.stage = .ended stop
    · obtain ⟨stop, hs⟩ := hended
      exact (h.ended stop hs).2 (hterminal stop hs)
    · exact (h.tracked (not_exists.1 hended)).announced

end LifetimeInv

/-- In every run of the process, on a device or a synthetic source and with
fewer than 2^64 - 1 attempts, every change of the mask between accepted records
with consecutive numbers is announced if and only if the terminal record, if
there is one, finds the mask of the last attempt, or one of the two is
dropped. -/
theorem button_changes_announced_iff {size features nowNs : UInt64} {capacity : UInt32}
    {device : DeviceIdentity} {ring : RingHeader} {config : BridgeConfig}
    {clientFd inputFd : Int32} {source : SyntheticSource}
    (hinit : initializeMapping size capacity features device 1 nowNs = .ok ring)
    (hopen : config.devicePath = true → 0 ≤ inputFd) {calls : List MainCall} {s : Lifetime}
    (hrun : lifetimeMachine.run
      (.boot (.boot (.boot config ring clientFd inputFd) source)) calls = some s)
    (hlt : s.running.attempts.length + 1 < 2 ^ 64) :
    ButtonsAnnounced (acceptedRecords s.running.attempts) ↔
      ∀ stop, s.stage = .ended stop → TerminalAnnounced stop := by
  have hmono : ∀ s call t, lifetimeMachine.step s call = some t →
      s.running.attempts.length + 1 ≤ t.running.attempts.length + 1 := by
    intro s call t hstep
    obtain ⟨-, hnext⟩ := mainMachine_step.1 (lifetimeMachine_step.1 hstep).2
    rw [hnext]
    simp
  have hboot : LifetimeInv
      (.boot (.boot (.boot config ring clientFd inputFd) source)) :=
    ⟨ledgersAgree_boot hinit hopen, fun _ => rfl, nofun,
      fun stop hs => absurd hs (barrier_ne_ended stop)⟩
  have h : LifetimeInv s :=
    Machine.run_invariant_below LifetimeInv (fun s => s.running.attempts.length + 1) hmono
      (fun _ _ _ hs ht hstep => hs.step hstep ht) hboot hrun hlt
  exact h.announced_iff hlt

/-- The start barrier of a client that asks for the ring. -/
def startCalls : List MainCall :=
  [.barrier false (.ok (SetModeMessage.bytes ⟨HFIOR_MODE_HFIOR, 240, 0⟩)) true .done,
    .discard [] none,
    .barrier true (.ok (headerBytes HFIOR_MSG_START)) true .done]

/-- A frame without a button, and a key event that the device has not yet
completed with a report. -/
def halfClick : MainCall :=
  .device (some [.events [quietReading (untimed EV_REL REL_X 5),
    quietReading (untimed EV_SYN SYN_REPORT 0),
    quietReading (untimed EV_KEY BTN_LEFT 1)]]) false ⟨.done, .done⟩ ⟨.done, .done⟩

/-- The report that completes the click. -/
def clickReport : MainCall :=
  .device (some [.events [quietReading (untimed EV_SYN SYN_REPORT 0)]]) false
    ⟨.done, .done⟩ ⟨.done, .done⟩

/-- The client asks for a stop, and the bridge publishes the terminal
record. -/
def stopCalls : List MainCall :=
  [.control (.ok (headerBytes HFIOR_MSG_STOP)) 0 .done, .terminal 0 quietEnv .done]

theorem button_changes_announced_click :
    ∃ s, lifetimeMachine.run (.boot (freshInput 64))
        (startCalls ++ [halfClick, clickReport] ++ stopCalls) = some s ∧
      (ButtonsAnnounced (acceptedRecords s.running.attempts) ↔
        ∀ stop, s.stage = .ended stop → TerminalAnnounced stop) ∧
      ButtonsAnnounced (acceptedRecords s.running.attempts) := by
  have hinit : initializeMapping (mappingSize 64) 64 0 ⟨[], 0, 0, 0, 0⟩ 1 0 =
      .ok (freshBridge 64).ring := rfl
  have hrun : lifetimeMachine.run (.boot (freshInput 64))
      (startCalls ++ [halfClick, clickReport] ++ stopCalls) = some _ := rfl
  refine ⟨_, hrun, button_changes_announced_iff hinit ?_ hrun ?_, ?_⟩ <;> decide

/-- A stop between the key event and its report: the terminal record has the
button, and not the flag. -/
theorem half_click_unannounced :
    ∃ s, lifetimeMachine.run (.boot (freshInput 64))
        (startCalls ++ [halfClick] ++ stopCalls) = some s ∧
      (acceptedRecords s.running.attempts).map Record.sequence = [1, 2] ∧
      (acceptedRecords s.running.attempts).map Record.buttons = [0, HFIOR_BUTTON_LEFT] ∧
      ¬ ButtonsAnnounced (acceptedRecords s.running.attempts) := by
  refine ⟨_, rfl, ?_⟩
  decide

end Hfior
