import Hfior.RingClient.RowOrder

/-!
# The steps of a frame of a ring policy

A ring policy makes no shadow drain and reads no message, so its steps on the
shared data are steps of `ringMachine` (`ringRowStep_of`).

`DrainedPast position s` is what a drain of the frame thread is for: the
records up to a position that was committed are in the queue, or the drain in
progress is going to push them.
-/

namespace Hfior

namespace RingSystem

/-- The records that frames have taken. -/
def takenCount (s : RingSystem) : Nat := s.taken.flatten.length

/-- The records that have been in the queue. -/
def pushedCount (s : RingSystem) : Nat := s.takenCount + s.client.pending.records.length

/-- The records up to the position have been in the queue, or the drain of the
frame thread brings them there. -/
def DrainedPast (position : Nat) (s : RingSystem) : Prop :=
  position ≤ s.start + s.pushedCount ∨
    ∃ d, s.drain = some d ∧ d.thread = .frame ∧
      (d.phase = .load ∨ position ≤ d.loaded.toNat)

theorem takenCount_takePending (s : RingSystem) : s.takePending.takenCount = s.pushedCount := by
  show (s.taken ++ [s.client.pending.records]).flatten.length = _
  rw [List.flatten_append, List.flatten_singleton, List.length_append]
  rfl

/-- Outside of a drain of the frame thread. -/
theorem DrainedPast.of_frameRuns {s : RingSystem} {position : Nat} (h : DrainedPast position s)
    (hruns : s.frameRuns = true) : position ≤ s.start + s.pushedCount := by
  rcases h with hle | ⟨d, hdrain, hthread, -⟩
  · exact hle
  · rw [frameRuns, hdrain, Option.all_some, hthread] at hruns
    cases hruns

/-- Behind the load of a drain. -/
theorem DrainedPast.of_loaded {s : RingSystem} {position : Nat} {d : RingDrain}
    (h : DrainedPast position s) (hdrain : s.drain = some d) (hphase : d.phase ≠ .load) :
    position ≤ s.start + s.pushedCount ∨ d.thread = .frame ∧ position ≤ d.loaded.toNat := by
  rcases h with hle | ⟨d', hdrain', hthread, hloaded⟩
  · exact .inl hle
  · rw [hdrain] at hdrain'
    obtain rfl := Option.some.inj hdrain'
    exact .inr ⟨hthread, hloaded.resolve_left hphase⟩

end RingSystem

/-! ## What a step of the ring client keeps -/

section
variable {s t : RingSystem} {label : RingLabel}

open RingSystem

theorem sendAckIfNeeded_policy {c c' : Client} {send : IoResult} {message : Option AckMessage}
    (h : sendAckIfNeeded c send = some (c', message)) : c'.policy = c.policy := by
  rcases sendAckIfNeeded_cases h with ⟨-, rfl, -⟩ | ⟨-, n, rfl⟩ <;> rfl

theorem RingStep.policy_eq (hstep : RingStep s label t) : t.client.policy = s.client.policy := by
  cases hstep with
  | deliver hchannel hallowed => rw [RingSystem.deliver_eq]
  | @account d batch nowNs hdrain hphase =>
    show (accountBatch s.client d.reason batch nowNs).policy = _
    obtain ⟨seen, ages, receipts, hclient⟩ := accountBatch_frame s.client d.reason batch nowNs
    rw [hclient]
  | push hdrain hphase hpush =>
    obtain ⟨queue, -, rfl⟩ := pushPending_frame hpush
    rfl
  | @finish d send t hdrain hphase hfinish =>
    obtain ⟨n, hcount⟩ := countNonempty_frame s.client d.total
    unfold RingSystem.finish at hfinish
    rw [hcount] at hfinish
    split at hfinish
    · obtain ⟨⟨client, message⟩, hsend, hfinish⟩ := Option.bind_eq_some_iff.1 hfinish
      obtain rfl := Option.some.inj hfinish
      have hpolicy := sendAckIfNeeded_policy hsend
      exact hpolicy
    · obtain rfl := Option.some.inj hfinish
      rfl
  | @frameAck send t hfree hack =>
    obtain ⟨⟨client, message⟩, hsend, hack⟩ := Option.bind_eq_some_iff.1 hack
    obtain rfl := Option.some.inj hack
    exact sendAckIfNeeded_policy hsend
  | _ => rfl

/-- Only a take moves the taken records. -/
theorem RingStep.taken_eq (hstep : RingStep s label t) (hne : label ≠ .takePending) :
    t.taken = s.taken := by
  cases hstep with
  | deliver hchannel hallowed => rw [RingSystem.deliver_eq]
  | finish hdrain hphase hfinish =>
    obtain ⟨client, message, -, rfl⟩ := finish_withAck hfinish
    rfl
  | frameAck hfree hack =>
    obtain ⟨client, message, -, rfl⟩ := frameAck_withAck hfree hack
    rfl
  | takePending hruns => exact absurd rfl hne
  | _ => rfl

theorem RingStep.accepted_extend (hstep : RingStep s label t) : s.accepted <+: t.accepted := by
  obtain ⟨rest, hrest⟩ := hstep.attempts_extend
  refine ⟨acceptedRecords rest, ?_⟩
  rw [RingSystem.accepted, RingSystem.accepted, ← hrest]
  simp [acceptedRecords]

/-- A drain of the frame thread that ends has pushed everything up to its last
head load, and this head is at least as far as any that was seen before. -/
theorem RingStep.drainedPast (hstep : RingStep s label t) (hinv : RingInv s) {position : Nat}
    (hle : position ≤ s.accepted.length) (h : DrainedPast position s) :
    DrainedPast position t := by
  cases hstep with
  | publish | announce | gone | reconnect | readUrgent => exact h
  | deliver hchannel hallowed =>
    rw [RingSystem.deliver_eq]
    exact h
  | lockUrgent hsignalled hfree =>
    rcases h with h | ⟨d, hdrain, -⟩
    · exact .inl h
    · rw [hfree] at hdrain
      cases hdrain
  | lockFrame hfree =>
    rcases h with h | ⟨d, hdrain, -⟩
    · exact .inl h
    · rw [hfree] at hdrain
      cases hdrain
  | load hdrain hphase havailable =>
    rcases h with h | ⟨d', hdrain', hthread, -⟩
    · exact .inl h
    · rw [hdrain] at hdrain'
      obtain rfl := Option.some.inj hdrain'
      refine .inr ⟨_, rfl, hthread, .inr ?_⟩
      show position ≤ s.head.toNat
      have hhead : s.head.toNat = s.accepted.length := hinv.ring.head
      omega
  | copy hdrain hphase =>
    rcases h.of_loaded hdrain (by rw [hphase]; exact DrainPhase.noConfusion) with
      h | ⟨hthread, hloaded⟩
    · exact .inl h
    · exact .inr ⟨_, rfl, hthread, .inr hloaded⟩
  | @account d batch nowNs hdrain hphase =>
    rcases h.of_loaded hdrain (by rw [hphase]; exact DrainPhase.noConfusion) with
      h | ⟨hthread, hloaded⟩
    · left
      show position ≤ s.start + (s.takenCount +
        (accountBatch s.client d.reason batch nowNs).pending.records.length)
      obtain ⟨seen, ages, receipts, hclient⟩ := accountBatch_frame s.client d.reason batch nowNs
      rw [hclient]
      exact h
    · exact .inr ⟨_, rfl, hthread, .inr hloaded⟩
  | push hdrain hphase hpush =>
    obtain ⟨queue, hqueue, rfl⟩ := pushPending_frame hpush
    rcases h.of_loaded hdrain (by rw [hphase]; exact DrainPhase.noConfusion) with
      h | ⟨hthread, hloaded⟩
    · left
      show position ≤ s.start + (s.takenCount + queue.records.length)
      rw [hqueue, List.length_append]
      have h : position ≤ s.start + (s.takenCount + s.client.pending.records.length) := h
      omega
    · exact .inr ⟨_, rfl, hthread, .inr hloaded⟩
  | count hdrain hphase =>
    rcases h.of_loaded hdrain (by rw [hphase]; exact DrainPhase.noConfusion) with
      h | ⟨hthread, hloaded⟩
    · exact .inl h
    · exact .inr ⟨_, rfl, hthread, .inr hloaded⟩
  | @finish d send t hdrain hphase hfinish =>
    obtain ⟨client, message, hsent, rfl⟩ := finish_withAck hfinish
    left
    show position ≤ s.start + (s.takenCount + client.pending.records.length)
    rw [hsent.frame.pending]
    rcases h.of_loaded hdrain (by rw [hphase]; exact DrainPhase.noConfusion) with h | ⟨-, hloaded⟩
    · exact h
    · -- Behind its last round the drain has pushed up to the local tail.
      have hbounds := (hinv.client.drain d hdrain).2
      rw [hphase] at hbounds
      have hpushed := congrArg List.length hinv.client.pushed
      rw [phase_of_drain hdrain, hphase, slice_length hinv.client.local_le, List.length_append,
        List.length_append] at hpushed
      have hpushed : s.takenCount + s.client.pending.records.length + 0 =
        s.client.localTail.toNat - s.start := hpushed
      have hbounds : d.loaded.toNat ≤ s.client.localTail.toNat := hbounds
      have hstart := hinv.client.start_le
      omega
  | takePending hruns =>
    left
    show position ≤ s.start + (s.takePending.takenCount + 0)
    rw [takenCount_takePending]
    exact h.of_frameRuns hruns
  | frameAck hfree hack =>
    obtain ⟨client, message, hsent, rfl⟩ := frameAck_withAck hfree hack
    left
    show position ≤ s.start + (s.takenCount + client.pending.records.length)
    rw [hsent.frame.pending]
    exact h.of_frameRuns (by rw [frameRuns, hfree]; rfl)

/-- A drain that the frame thread begins. -/
theorem drainedPast_lock (s : RingSystem) (reason : ReceiptReason) (acknowledgeNow : Bool)
    (position : Nat) : DrainedPast position (s.lock .frame reason acknowledgeNow) :=
  .inr ⟨_, rfl, rfl, .inl rfl⟩

end

/-! ## The steps of a row -/

/-- Everything that a step of a ring policy can do. -/
inductive RingRowStep (config : FrameConfig) (s : RowSystem) : RowSystem → Prop
  | begin {targetStartNs frameStartNs frames} (hover : s.todo = [])
      (hloop : frames.loop = s.frames.loop) :
    RingRowStep config s (s.begin config frames targetStartNs frameStartNs)
  | other {label frames} (hop : (LoopLabel.system label).frameOp = none)
      (hring : RingStep s.ring label frames.loop.system) :
    RingRowStep config s { s with frames := frames }
  | shared {label op next todo frames} (htodo : s.todo = next :: todo)
      (hop : (LoopLabel.system label).frameOp = some op) (hnext : next.frameOp = some op)
      (hring : RingStep s.ring label frames.loop.system) :
    RingRowStep config s { s with frames := frames, todo := todo, locals := s.gathered next }
  | own {nowNs op todo l} (htodo : s.todo = .own op :: todo) (hne : op ≠ .writeFrame)
      (hlocals : s.locals = some l) :
    RingRowStep config s { s.perform l nowNs op with todo := todo }
  | writeFrame {todo} (htodo : s.todo = .own .writeFrame :: todo) :
    RingRowStep config s { s.writeFrame with todo := todo }

/-- A client that has made no shadow drain and makes none. -/
structure Unshadowed (s : RowSystem) : Prop where
  policy : s.policy ≠ .eagerThread
  shadow : s.frames.loop.shadow = false
  todo : s.todo.any RowOp.isShadow = false

section
variable {config : FrameConfig} {s t : RowSystem} {label : RowLabel}

/-- A loop step without a shadow drain and without a message. -/
theorem loopStep_ring {s t : LoopSystem} {label : LoopLabel} (hshadow : s.shadow = false)
    (hlock : ∀ reason acknowledgeNow, label ≠ .lockShadow reason acknowledgeNow)
    (hreceive : ∀ acceptEager nowNs message, label ≠ .receive acceptEager nowNs message)
    (h : loopStep s label = some t) :
    t.shadow = false ∧ ∃ l, label = .system l ∧ RingStep s.system l t.system := by
  cases label with
  | system l =>
    simp only [loopStep, hshadow, Bool.false_and, Bool.false_eq_true, if_false] at h
    obtain ⟨system, hsystem, rfl⟩ := Option.map_eq_some_iff.1 h
    refine ⟨?_, l, rfl, ?_⟩
    · cases l <;> first | exact hshadow | rfl
    · rw [LoopSystem.after_system]
      exact ringStep_cases hsystem
  | lockShadow reason acknowledgeNow => exact absurd rfl (hlock reason acknowledgeNow)
  | countShadow =>
    simp only [loopStep, hshadow] at h
    split at h
    · split at h
      · cases h
      · cases h
    · cases h
  | receive acceptEager nowNs message => exact absurd rfl (hreceive acceptEager nowNs message)

/-- The loop step below a step of `frameMachine`. -/
theorem frameStep_loop {f g : FrameSystem} {label : LoopLabel}
    (h : (frameMachine config).step f (.loop label) = some g) :
    loopStep f.loop label = some g.loop := by
  have h : frameStep config f (.loop label) = some g := h
  simp only [frameStep] at h
  split at h
  · obtain ⟨loop, hloop, rfl⟩ := Option.map_eq_some_iff.1 h
    exact hloop
  · split at h
    · obtain ⟨loop, hloop, rfl⟩ := Option.map_eq_some_iff.1 h
      exact hloop
    · cases h
  · cases h

/-- The steps of a ring policy, which stay unshadowed. -/
theorem ringRowStep_of (h : Unshadowed s) (hstep : RowStep config s label t) :
    RingRowStep config s t ∧ Unshadowed t := by
  cases hstep with
  | begin hover hframe =>
    cases frameStep_cases hframe with
    | frame hbetween =>
      exact ⟨.begin hover rfl, h.policy, h.shadow, any_isShadow config h.policy⟩
  | @other label frames hop hreads hframe =>
    have hloop := frameStep_loop hframe
    obtain ⟨hshadow, l, rfl, hring⟩ := loopStep_ring h.shadow
      (fun reason acknowledgeNow heq => by rw [heq] at hop; cases hop)
      (fun acceptEager nowNs message heq => by
        rw [heq] at hreads
        exact h.policy (of_decide_eq_true hreads)) hloop
    refine ⟨.other hop hring, ?_, hshadow, h.todo⟩
    show frames.loop.system.client.policy ≠ _
    rw [hring.policy_eq]
    exact h.policy
  | @shared label op next todo frames hop htodo hnext hframe =>
    have hloop := frameStep_loop hframe
    have hany := h.todo
    rw [htodo, List.any_cons, Bool.or_eq_false_iff] at hany
    obtain ⟨hshadow, l, rfl, hring⟩ := loopStep_ring h.shadow
      (fun reason acknowledgeNow heq => by
        rw [heq] at hop
        obtain rfl := Option.some.inj hop
        cases next with
        | drain r sh a =>
          obtain rfl : sh = true := (FrameOp.drain.inj (Option.some.inj hnext)).2.1
          cases hany.1
        | take | ack | own => cases hnext)
      (fun acceptEager nowNs message heq => by rw [heq] at hop; cases hop) hloop
    refine ⟨.shared htodo hop hnext hring, ?_, hshadow, hany.2⟩
    show frames.loop.system.client.policy ≠ _
    rw [hring.policy_eq]
    exact h.policy
  | @own nowNs op todo l htodo hne hlocals hruns =>
    have hany := h.todo
    rw [htodo, List.any_cons, Bool.or_eq_false_iff] at hany
    refine ⟨.own htodo hne hlocals, ?_, ?_, hany.2⟩
    · show (s.perform l nowNs op).frames.loop.system.client.policy ≠ _
      rw [RowSystem.perform_frames]
      exact h.policy
    · show (s.perform l nowNs op).frames.loop.shadow = false
      rw [RowSystem.perform_frames]
      exact h.shadow
  | writeFrame htodo hruns =>
    have hany := h.todo
    rw [htodo, List.any_cons, Bool.or_eq_false_iff] at hany
    exact ⟨.writeFrame htodo, h.policy, h.shadow, hany.2⟩

end

end Hfior
