import Hfior.RingClient.DrainBound
import Mathlib.Data.List.Range

/-!
# No frame forgets to acknowledge

A frame runs the policy of the client and then `maybe_ack_post_frame`.  The
seven policies drain in different places, some of their drains send an ACK
and others do not, and where the ACK of a frame is sent depends on the ACK
placement.

`frame` is what one frame does, in order, for every policy and every
configuration, and `frameMachine` runs it between the steps of the bridge
and of the ingress thread, which drains on its own.  `owedBehind` follows
what is left to acknowledge through the rest of a frame, and it is nothing
behind its end (`owedBehind_frame`).  The field `sent` is a ghost.
-/

namespace Hfior

/-- `enum ack_placement`. -/
inductive AckPlacement where
  | critical | postUse | postFrame
deriving DecidableEq, Repr

/-- The parts of `struct config` that decide what a frame does, beside its
policy. -/
structure FrameConfig where
  ackPlacement : AckPlacement
  checksPerFrame : UInt32
  finalRechecks : UInt32
deriving DecidableEq, Repr

/-- What the frame thread does with the shared data of the client. -/
inductive FrameOp where
  /-- A call of `drain_ring`. -/
  | drain (reason : ReceiptReason) (shadow acknowledgeNow : Bool)
  | takePending
  /-- `send_ack_if_needed` under the mutex. -/
  | ack
deriving DecidableEq, Repr

/-! ## The frames -/

def ackDuringDrain (config : FrameConfig) : Bool :=
  config.ackPlacement = .critical

def maybeAckPostUse (config : FrameConfig) : List FrameOp :=
  if config.ackPlacement = .postUse then [.ack] else []

def maybeAckPostFrame (config : FrameConfig) : List FrameOp :=
  if config.ackPlacement = .postFrame then [.ack] else []

/-- The checks of a frame before its first use of the records. -/
def prechecks (config : FrameConfig) : List FrameOp :=
  let checks := if config.checksPerFrame ≠ 0 then config.checksPerFrame else 1
  List.replicate checks.toNat (.drain .frameRing false false)

/-- The rechecks behind the late latch: the last one may acknowledge. -/
def rechecks (config : FrameConfig) : List FrameOp :=
  (List.range config.finalRechecks.toNat).flatMap fun recheck =>
    [.drain .finalRing false
      (recheck + 1 == config.finalRechecks.toNat && ackDuringDrain config), .takePending]

/-- `run_frame_policy`. -/
def runFramePolicy (config : FrameConfig) : ClientPolicy → List FrameOp
  | .eagerThread => [.takePending, .drain .frameRing true true]
  | .hfiorCriticalAck =>
    [.drain .frameRing false (ackDuringDrain config), .takePending] ++ maybeAckPostUse config
  | .hfiorLate | .hfiorSpin =>
    [.drain .finalRing false (ackDuringDrain config), .takePending] ++ maybeAckPostUse config
  | .hfiorMulti =>
    prechecks config ++ [.takePending] ++ (if ackDuringDrain config then [.ack] else []) ++
      maybeAckPostUse config
  | .hfiorLateLatch =>
    prechecks config ++ [.takePending] ++
      [.drain .finalRing false (ackDuringDrain config), .takePending] ++ rechecks config ++
        maybeAckPostUse config
  | .hfiorTwoStage =>
    [.drain .frameRing false false, .takePending] ++
      [.drain .finalRing false (ackDuringDrain config), .takePending] ++ maybeAckPostUse config

/-- One frame of the main loop. -/
def frame (config : FrameConfig) (policy : ClientPolicy) : List FrameOp :=
  runFramePolicy config policy ++ maybeAckPostFrame config

/-- A drain of the shutdown, which acknowledges for every policy. -/
def shutdownDrain (policy : ClientPolicy) : List FrameOp :=
  [.drain .shutdown (policy = .eagerThread) true]

/-! ## What is owed -/

/-- Whether drained records may be unacknowledged behind an operation. -/
def FrameOp.owedAfter (owed : Bool) : FrameOp → Bool
  | .drain _ _ acknowledgeNow => !acknowledgeNow
  | .takePending => owed
  | .ack => false

/-- The same behind all of the operations. -/
def owedBehind (owed : Bool) (ops : List FrameOp) : Bool :=
  ops.foldl FrameOp.owedAfter owed

theorem owedBehind_append (owed : Bool) (ops rest : List FrameOp) :
    owedBehind owed (ops ++ rest) = owedBehind (owedBehind owed ops) rest :=
  List.foldl_append

/-- Who owes less before owes less behind. -/
theorem owedBehind_mono {owed owed' : Bool} (hle : owed ≤ owed') (ops : List FrameOp) :
    owedBehind owed ops ≤ owedBehind owed' ops := by
  induction ops generalizing owed owed' with
  | nil => exact hle
  | cons op ops ih =>
    refine ih ?_
    cases op with
    | takePending => exact hle
    | drain | ack => exact le_rfl

/-- The last of the rechecks pays, and without a recheck nothing changes. -/
theorem owedBehind_rechecks {config : FrameConfig} (hcritical : ackDuringDrain config = true) :
    owedBehind false (rechecks config) = false := by
  unfold rechecks
  cases config.finalRechecks.toNat with
  | zero => rfl
  | succ n =>
    rw [List.range_succ, List.flatMap_append, List.flatMap_singleton, owedBehind_append,
      hcritical, beq_self_eq_true]
    rfl

/-- Where the drains acknowledge, every policy pays in a drain, or behind its
first use of the records. -/
theorem owedBehind_of_critical {config : FrameConfig}
    (hplacement : config.ackPlacement = .critical) (owed : Bool) (policy : ClientPolicy) :
    owedBehind owed (runFramePolicy config policy) = false := by
  have hcritical : ackDuringDrain config = true := decide_eq_true hplacement
  have hnotUse : maybeAckPostUse config = [] := by
    rw [maybeAckPostUse, hplacement]
    rfl
  cases policy with
  | eagerThread => rfl
  | hfiorCriticalAck | hfiorLate | hfiorSpin | hfiorTwoStage =>
    simp only [runFramePolicy, hcritical, hnotUse]
    rfl
  | hfiorMulti =>
    simp only [runFramePolicy, hcritical, hnotUse, if_true, List.append_nil, owedBehind_append]
    rfl
  | hfiorLateLatch =>
    simp only [runFramePolicy, hcritical, hnotUse, List.append_nil, owedBehind_append]
    exact owedBehind_rechecks hcritical

/-- Behind the use of the records the last operation pays, and the eager
policy pays in its drain. -/
theorem owedBehind_of_postUse {config : FrameConfig}
    (hplacement : config.ackPlacement = .postUse) (owed : Bool) (policy : ClientPolicy) :
    owedBehind owed (runFramePolicy config policy) = false := by
  have huse : maybeAckPostUse config = [.ack] := by
    rw [maybeAckPostUse, hplacement]
    rfl
  cases policy <;> simp only [runFramePolicy, huse, owedBehind_append] <;> rfl

/-- Every frame of every policy pays what it owes. -/
theorem owedBehind_frame (config : FrameConfig) (owed : Bool) (policy : ClientPolicy) :
    owedBehind owed (frame config policy) = false := by
  rw [frame, owedBehind_append]
  cases hplacement : config.ackPlacement with
  | critical =>
    rw [owedBehind_of_critical hplacement, maybeAckPostFrame, hplacement]
    rfl
  | postUse =>
    rw [owedBehind_of_postUse hplacement, maybeAckPostFrame, hplacement]
    rfl
  | postFrame =>
    rw [maybeAckPostFrame, hplacement]
    rfl

/-! ## The machine -/

/-- The positions of the ACKs that a step has put on the channel. -/
def sentBetween (s t : RingSystem) : List UInt64 :=
  (t.channel.drop s.channel.length).map AckMessage.consumedTail

structure FrameSystem where
  loop : LoopSystem
  /-- What the frame thread still has to do in its call. -/
  rest : List FrameOp
  /-- The positions of all ACKs. -/
  sent : List UInt64

namespace FrameSystem

/-- Before the first frame. -/
def initial (s : RingSystem) : FrameSystem := ⟨.initial s, [], []⟩

/-- The frame thread is not in a call. -/
def betweenCalls (s : FrameSystem) : Bool :=
  s.rest.isEmpty && s.loop.system.frameRuns

/-- A step of `loopMachine`, behind which the frame thread has `rest` to do. -/
def after (s : FrameSystem) (loop : LoopSystem) (rest : List FrameOp) : FrameSystem where
  loop := loop
  rest := rest
  sent := s.sent ++ sentBetween s.loop.system loop.system

end FrameSystem

/-- The operation of the frame thread that a step is, or starts. -/
def LoopLabel.frameOp : LoopLabel → Option FrameOp
  | .system (.lockFrame reason acknowledgeNow) => some (.drain reason false acknowledgeNow)
  | .lockShadow reason acknowledgeNow => some (.drain reason true acknowledgeNow)
  | .system .takePending => some .takePending
  | .system (.frameAck _) => some .ack
  | _ => none

inductive FrameLabel where
  /-- The next frame. -/
  | frame
  /-- A drain of the shutdown. -/
  | shutdown
  | loop (label : LoopLabel)
deriving DecidableEq

/-- One step.  The frame thread takes its operations in order, and all other
steps come between them. -/
def frameStep (config : FrameConfig) (s : FrameSystem) : FrameLabel → Option FrameSystem
  | .frame =>
    if s.betweenCalls then
      some { s with rest := frame config s.loop.system.client.policy }
    else none
  | .shutdown =>
    if s.betweenCalls then
      some { s with rest := shutdownDrain s.loop.system.client.policy }
    else none
  | .loop label => match label.frameOp, s.rest with
    | none, rest => (loopStep s.loop label).map fun loop => s.after loop rest
    | some op, next :: rest =>
      if op = next then (loopStep s.loop label).map fun loop => s.after loop rest else none
    | some _, [] => none

/-- The interleavings of the frames with the bridge and the ingress thread. -/
def frameMachine (config : FrameConfig) : Machine FrameSystem FrameLabel where
  step := frameStep config

/-- Everything that a step can do. -/
inductive FrameStep (config : FrameConfig) (s : FrameSystem) :
    FrameLabel → FrameSystem → Prop
  | frame (hbetween : s.betweenCalls = true) :
    FrameStep config s .frame { s with rest := frame config s.loop.system.client.policy }
  | shutdown (hbetween : s.betweenCalls = true) :
    FrameStep config s .shutdown { s with rest := shutdownDrain s.loop.system.client.policy }
  | own {label op rest loop} (hop : label.frameOp = some op) (hrest : s.rest = op :: rest)
      (hstep : LoopStep s.loop label loop) :
    FrameStep config s (.loop label) (s.after loop rest)
  | other {label loop} (hop : label.frameOp = none) (hstep : LoopStep s.loop label loop) :
    FrameStep config s (.loop label) (s.after loop s.rest)

theorem frameStep_cases {config : FrameConfig} {s t : FrameSystem} {label : FrameLabel}
    (h : (frameMachine config).step s label = some t) : FrameStep config s label t := by
  have h : frameStep config s label = some t := h
  cases label with
  | frame =>
    simp only [frameStep] at h
    split at h
    · rename_i hbetween
      obtain rfl := Option.some.inj h
      exact .frame hbetween
    · cases h
  | shutdown =>
    simp only [frameStep] at h
    split at h
    · rename_i hbetween
      obtain rfl := Option.some.inj h
      exact .shutdown hbetween
    · cases h
  | loop label =>
    simp only [frameStep] at h
    split at h
    · rename_i hop
      obtain ⟨loop, hloop, rfl⟩ := Option.map_eq_some_iff.1 h
      exact .other hop (loopStep_cases hloop)
    · rename_i op next rest hop hrest
      split at h
      · rename_i heq
        obtain ⟨loop, hloop, rfl⟩ := Option.map_eq_some_iff.1 h
        exact .own hop (heq ▸ hrest) (loopStep_cases hloop)
      · cases h
    · cases h

/-! ## What a step owes and sends -/

/-- Whether drained records may be unacknowledged when the mutex is free the
next time. -/
def owed (s : RingSystem) : Bool :=
  match s.drain with
  | some d => !d.acknowledgeNow
  | none => s.client.localTail != s.client.lastAckedTail

section
variable {s t : RingSystem} {d : RingDrain}

theorem owed_of_free (hfree : s.drain = none) :
    owed s = (s.client.localTail != s.client.lastAckedTail) := by
  rw [owed, hfree]

theorem owed_of_drain (hdrain : s.drain = some d) : owed s = !d.acknowledgeNow := by
  rw [owed, hdrain]

theorem owed_congr (hdrain : t.drain = s.drain)
    (hlocal : t.client.localTail = s.client.localTail)
    (hacked : t.client.lastAckedTail = s.client.lastAckedTail) : owed t = owed s := by
  rw [owed, owed, hdrain, hlocal, hacked]

theorem sentBetween_eq_nil (hchannel : t.channel.length ≤ s.channel.length) :
    sentBetween s t = [] := by
  rw [sentBetween, List.drop_eq_nil_of_le hchannel, List.map_nil]

theorem sendAckIfNeeded_owed {c c' : Client} {send : IoResult} {message : Option AckMessage}
    (h : sendAckIfNeeded c send = some (c', message)) : c'.lastAckedTail = c'.localTail := by
  rcases sendAckIfNeeded_cases h with ⟨heq, rfl, -⟩ | ⟨-, n, rfl⟩
  · exact heq.symm
  · rfl

/-- The two ends of a drain. -/
theorem finish_cases {send : IoResult} (hfinish : s.finish d send = some t) :
    (d.acknowledgeNow = false ∧
      t = { s with client := countNonempty s.client d.total, drain := none }) ∨
    (d.acknowledgeNow = true ∧ ∃ client message,
      sendAckIfNeeded (countNonempty s.client d.total) send = some (client, message) ∧
        t = { s with
          client := client, drain := none, channel := s.channel ++ message.toList }) := by
  cases hack : d.acknowledgeNow with
  | false =>
    simp only [RingSystem.finish, hack, Bool.false_eq_true, if_false] at hfinish
    exact .inl ⟨rfl, (Option.some.inj hfinish).symm⟩
  | true =>
    simp only [RingSystem.finish, hack, if_true] at hfinish
    obtain ⟨⟨client, message⟩, hsend, ht⟩ := Option.bind_eq_some_iff.1 hfinish
    exact .inr ⟨rfl, client, message, hsend, (Option.some.inj ht).symm⟩

theorem frameAck_cases {send : IoResult} (hack : s.frameAck send = some t) :
    ∃ client message, sendAckIfNeeded s.client send = some (client, message) ∧
      t = { s with client := client, channel := s.channel ++ message.toList } := by
  obtain ⟨⟨client, message⟩, hsend, ht⟩ := Option.bind_eq_some_iff.1 hack
  exact ⟨client, message, hsend, (Option.some.inj ht).symm⟩

/-- Behind a drain nothing is owed, if it acknowledges. -/
theorem owed_finish {send : IoResult} (hfinish : s.finish d send = some t) :
    owed t ≤ !d.acknowledgeNow := by
  rcases finish_cases hfinish with ⟨hack, -⟩ | ⟨hack, client, message, hsend, rfl⟩
  · rw [hack]
    exact le_top
  · rw [hack, owed_of_free rfl, sendAckIfNeeded_owed hsend, bne_self_eq_false]
    exact le_rfl

theorem owed_frameAck {send : IoResult} (hfree : s.drain = none)
    (hack : s.frameAck send = some t) : owed t = false := by
  obtain ⟨client, message, hsend, rfl⟩ := frameAck_cases hack
  rw [owed, hfree]
  show (client.localTail != client.lastAckedTail) = false
  rw [sendAckIfNeeded_owed hsend, bne_self_eq_false]

/-- What is owed behind a step of the ring machine, which may be an operation
of the frame thread. -/
theorem RingStep.owed_le {label : RingLabel} (hstep : RingStep s label t) :
    owed t ≤ (LoopLabel.system label).frameOp.elim (owed s) (FrameOp.owedAfter (owed s)) := by
  cases hstep with
  | deliver =>
    rw [RingSystem.deliver_eq]
    exact le_of_eq (owed_congr rfl rfl rfl)
  | publish | announce | gone | reconnect | readUrgent | takePending =>
    exact le_of_eq (owed_congr rfl rfl rfl)
  | lockUrgent => exact bot_le
  | lockFrame => exact le_rfl
  | load hdrain | copy hdrain | push hdrain | count hdrain | account hdrain =>
    exact le_of_eq (owed_of_drain hdrain).symm
  | finish hdrain hphase hfinish =>
    exact (owed_finish hfinish).trans_eq (owed_of_drain hdrain).symm
  | frameAck hfree hack => exact le_of_eq (owed_frameAck hfree hack)

/-- What is owed behind a step of the drains. -/
theorem LoopStep.owed_le {s t : LoopSystem} {label : LoopLabel} (hstep : LoopStep s label t) :
    owed t.system ≤
      label.frameOp.elim (owed s.system) (FrameOp.owedAfter (owed s.system)) := by
  cases hstep with
  | system hallowed hsystem =>
    rw [LoopSystem.after_system]
    exact hsystem.owed_le
  | lockShadow => exact le_rfl
  | countShadow hdrain => exact le_of_eq (owed_of_drain hdrain).symm
  | receive hreceive =>
    obtain ⟨hlocal, hacked⟩ := receiveMessage_frame hreceive
    exact le_of_eq (owed_congr rfl hlocal hacked)

/-- A step sends nothing, or one ACK for a local tail that is not
acknowledged. -/
inductive Sends (s t : RingSystem) : Prop
  | nothing (hsent : sentBetween s t = [])
    (hacked : t.client.lastAckedTail = s.client.lastAckedTail)
  | localTail (hsent : sentBetween s t = [s.client.localTail])
    (hacked : t.client.lastAckedTail = s.client.localTail)
    (hnew : s.client.localTail ≠ s.client.lastAckedTail)

theorem sends_of_channel (hchannel : t.channel = s.channel)
    (hacked : t.client.lastAckedTail = s.client.lastAckedTail) : Sends s t :=
  .nothing (sentBetween_eq_nil (le_of_eq (congrArg List.length hchannel))) hacked

/-- A call of `send_ack_if_needed` by a client at the same positions. -/
theorem sends_of_sendAckIfNeeded {c c' : Client} {send : IoResult}
    {message : Option AckMessage} (hsend : sendAckIfNeeded c send = some (c', message))
    (hlocal : c.localTail = s.client.localTail)
    (hacked : c.lastAckedTail = s.client.lastAckedTail) (hclient : t.client = c')
    (hchannel : t.channel = s.channel ++ message.toList) : Sends s t := by
  have hsent : sentBetween s t = message.toList.map AckMessage.consumedTail := by
    rw [sentBetween, hchannel, List.drop_left]
  by_cases heq : c.localTail = c.lastAckedTail
  · have hquiet : sendAckIfNeeded c send = some (c, none) := if_pos (beq_iff_eq.2 heq)
    rw [hquiet] at hsend
    cases hsend
    exact .nothing hsent (by rw [hclient, hacked])
  · rcases sendAckIfNeeded_cases hsend with ⟨hnone, -⟩ | ⟨rfl, n, rfl⟩
    · exact absurd hnone heq
    · refine .localTail ?_ ?_ ?_
      · rw [hsent, ← hlocal]
        rfl
      · rw [hclient, ← hlocal]
      · rw [← hlocal, ← hacked]
        exact heq

theorem sends_finish {send : IoResult} (hfinish : s.finish d send = some t) : Sends s t := by
  obtain ⟨n, hcount⟩ := countNonempty_frame s.client d.total
  have hlocal : (countNonempty s.client d.total).localTail = s.client.localTail := by
    rw [hcount]
  have hacked : (countNonempty s.client d.total).lastAckedTail = s.client.lastAckedTail := by
    rw [hcount]
  rcases finish_cases hfinish with ⟨-, rfl⟩ | ⟨-, client, message, hsend, rfl⟩
  · exact sends_of_channel rfl hacked
  · exact sends_of_sendAckIfNeeded hsend hlocal hacked rfl rfl

theorem RingStep.sends {label : RingLabel} (hstep : RingStep s label t) : Sends s t := by
  cases hstep with
  | deliver hchannel =>
    rw [RingSystem.deliver_eq]
    refine .nothing (sentBetween_eq_nil ?_) rfl
    rw [hchannel, List.length_cons]
    exact Nat.le_succ _
  | @account d batch nowNs =>
    obtain ⟨seen, ages, receipts, hclient⟩ := accountBatch_frame s.client d.reason batch nowNs
    refine sends_of_channel rfl ?_
    rw [RingSystem.account, hclient]
  | push hdrain hphase hpush =>
    obtain ⟨queue, hqueue, rfl⟩ := pushPending_frame hpush
    exact sends_of_channel rfl rfl
  | finish hdrain hphase hfinish => exact sends_finish hfinish
  | frameAck hfree hack =>
    obtain ⟨client, message, hsend, rfl⟩ := frameAck_cases hack
    exact sends_of_sendAckIfNeeded hsend rfl rfl rfl rfl
  | _ => exact sends_of_channel rfl rfl

theorem LoopStep.sends {s t : LoopSystem} {label : LoopLabel} (hstep : LoopStep s label t) :
    Sends s.system t.system := by
  cases hstep with
  | system hallowed hsystem =>
    rw [LoopSystem.after_system]
    exact hsystem.sends
  | lockShadow => exact sends_of_channel rfl rfl
  | countShadow hdrain => exact sends_of_channel rfl rfl
  | receive hreceive => exact sends_of_channel rfl (receiveMessage_frame hreceive).2

end

/-! ## The invariants -/

namespace FrameSystem

variable {config : FrameConfig} {start : UInt64} {s t : FrameSystem}

/-- What is owed is paid in the rest of the call, and the last ACK was for
the acknowledged tail. -/
structure AckInv (start : UInt64) (s : FrameSystem) : Prop where
  paid : owedBehind (owed s.loop.system) s.rest = false
  last : s.sent.getLastD start = s.loop.system.client.lastAckedTail

namespace AckInv

/-- A step of the drains that owes no more than the rest of the call pays. -/
theorem after (h : AckInv start s) {loop : LoopSystem} {rest : List FrameOp} {before : Bool}
    (hsends : Sends s.loop.system loop.system) (hle : owed loop.system ≤ before)
    (hpaid : owedBehind before rest = false) : AckInv start (s.after loop rest) := by
  refine ⟨?_, ?_⟩
  · have hbehind := owedBehind_mono hle rest
    rw [hpaid] at hbehind
    exact le_bot_iff.1 hbehind
  · show (s.sent ++ sentBetween s.loop.system loop.system).getLastD start =
      loop.system.client.lastAckedTail
    cases hsends with
    | nothing hsent hacked =>
      rw [hsent, hacked, List.append_nil]
      exact h.last
    | localTail hsent hacked =>
      rw [hsent, hacked, List.getLastD_concat]

theorem step (h : AckInv start s) {label : FrameLabel} (hstep : FrameStep config s label t) :
    AckInv start t := by
  cases hstep with
  | frame => exact ⟨owedBehind_frame config _ _, h.last⟩
  | shutdown => exact ⟨rfl, h.last⟩
  | @own label op rest loop hop hrest hloop =>
    have hle := hloop.owed_le
    have hpaid := h.paid
    rw [hop] at hle
    rw [hrest] at hpaid
    exact h.after hloop.sends hle hpaid
  | other hop hloop =>
    have hle := hloop.owed_le
    rw [hop] at hle
    exact h.after hloop.sends hle h.paid

/-- Between two calls, with the mutex free, everything is acknowledged. -/
theorem acknowledged (h : AckInv start s) (hover : s.rest = [])
    (hfree : s.loop.system.drain = none) :
    s.loop.system.client.lastAckedTail = s.loop.system.client.localTail := by
  have hpaid := h.paid
  rw [hover, owed_of_free hfree] at hpaid
  exact (bne_eq_false_iff_eq.1 hpaid).symm

end AckInv

/-- The ACKs are strictly increasing, up to the acknowledged tail. -/
structure SentInv (s : FrameSystem) : Prop where
  base : s.loop.LoopInv
  increasing : s.sent.Pairwise (· < ·)
  le : ∀ position ∈ s.sent, position ≤ s.loop.system.client.lastAckedTail

namespace SentInv

theorem after (h : SentInv s) {label : LoopLabel} {loop : LoopSystem}
    (hstep : LoopStep s.loop label loop) (hlt : loop.system.attempts.length + 1 < 2 ^ 64)
    (rest : List FrameOp) : SentInv (s.after loop rest) := by
  have hacked_le := h.base.base.acked_le
  rw [← UInt64.le_iff_toNat_le] at hacked_le
  have hbase := h.base.step hstep hlt
  cases hstep.sends with
  | nothing hsent hacked =>
    refine ⟨hbase, ?_, ?_⟩ <;> simp only [FrameSystem.after, hsent, hacked, List.append_nil]
    · exact h.increasing
    · exact h.le
  | localTail hsent hacked hnew =>
    have hbelow : ∀ position ∈ s.sent, position < s.loop.system.client.localTail :=
      fun position hmem =>
        UInt64.lt_of_le_of_lt (h.le position hmem) (UInt64.lt_of_le_of_ne hacked_le hnew.symm)
    refine ⟨hbase, ?_, ?_⟩ <;> simp only [FrameSystem.after, hsent, hacked]
    · refine List.pairwise_append.2 ⟨h.increasing, List.pairwise_singleton _ _, ?_⟩
      intro position hmem last hlast
      rw [List.mem_singleton.1 hlast]
      exact hbelow position hmem
    · intro position hmem
      rcases List.mem_append.1 hmem with hold | hlast
      · exact UInt64.le_of_lt (hbelow position hold)
      · rw [List.mem_singleton.1 hlast]
        exact UInt64.le_refl _

theorem step (h : SentInv s) {label : FrameLabel} (hstep : FrameStep config s label t)
    (hlt : t.loop.system.attempts.length + 1 < 2 ^ 64) : SentInv t := by
  cases hstep with
  | frame | shutdown => exact ⟨h.base, h.increasing, h.le⟩
  | own hop hrest hloop => exact h.after hloop hlt _
  | other hop hloop => exact h.after hloop hlt _

end SentInv

end FrameSystem

/-! ## Runs -/

theorem FrameStep.attempts_le {config : FrameConfig} {s t : FrameSystem} {label : FrameLabel}
    (h : FrameStep config s label t) :
    s.loop.system.attempts.length + 1 ≤ t.loop.system.attempts.length + 1 := by
  cases h with
  | frame | shutdown => exact Nat.le_refl _
  | own hop hrest hloop => exact hloop.attempts_le
  | other hop hloop => exact hloop.attempts_le

/-- What is owed is paid, along a run. -/
theorem ackInv_run (config : FrameConfig) (x : ClientStart) {labels : List FrameLabel}
    {s : FrameSystem}
    (hrun : (frameMachine config).run (.initial x.ringState) labels = some s) :
    s.AckInv x.position := by
  have hinitial : FrameSystem.AckInv x.position (.initial x.ringState) :=
    ⟨bne_self_eq_false _, rfl⟩
  refine Machine.run_invariant (FrameSystem.AckInv x.position) ?_ hinitial hrun
  intro u label v hu hstep
  exact hu.step (frameStep_cases hstep)

/-- The ACKs are strictly increasing, along a run. -/
theorem sentInv_run (config : FrameConfig) (x : ClientStart) {labels : List FrameLabel}
    {s : FrameSystem}
    (hrun : (frameMachine config).run (.initial x.ringState) labels = some s)
    (hlt : s.loop.system.attempts.length + 1 < 2 ^ 64) : s.SentInv := by
  have hmono : ∀ u label v, (frameMachine config).step u label = some v →
      u.loop.system.attempts.length + 1 ≤ v.loop.system.attempts.length + 1 :=
    fun _ _ _ hstep => (frameStep_cases hstep).attempts_le
  have hstart : x.attempts.length + 1 ≤ s.loop.system.attempts.length + 1 :=
    Machine.run_mono (μ := fun u : FrameSystem => u.loop.system.attempts.length + 1) hmono hrun
  have hinitial : FrameSystem.SentInv (.initial x.ringState) :=
    ⟨loopInv_initial x (Nat.lt_of_le_of_lt hstart hlt), List.Pairwise.nil,
      fun _ hmem => by cases hmem⟩
  refine Machine.run_invariant_below FrameSystem.SentInv
    (fun u => u.loop.system.attempts.length + 1) hmono ?_ hinitial hrun hlt
  intro u label v hu hv hstep
  exact hu.step (frameStep_cases hstep) hv

/-- For every policy and every configuration, whatever the bridge and the
ingress thread do between the operations of the frames: between two calls of
the frame thread, with the mutex free, the local tail is acknowledged, and the
last ACK was for it.  The ACKs are strictly increasing. -/
theorem no_frame_forgets_to_acknowledge (config : FrameConfig) (x : ClientStart)
    {labels : List FrameLabel} {s : FrameSystem}
    (hrun : (frameMachine config).run (.initial x.ringState) labels = some s) :
    (s.rest = [] → s.loop.system.drain = none →
      s.loop.system.client.lastAckedTail = s.loop.system.client.localTail ∧
        s.sent.getLastD x.position = s.loop.system.client.localTail) ∧
      (s.loop.system.attempts.length + 1 < 2 ^ 64 → s.sent.Pairwise (· < ·)) := by
  have hinv := ackInv_run config x hrun
  constructor
  · intro hover hfree
    have hacked := hinv.acknowledged hover hfree
    exact ⟨hacked, hinv.last.trans hacked⟩
  · intro hlt
    exact (sentInv_run config x hrun hlt).increasing

/-- A frame with two checks, the first of which drains a record: its ACK is
sent behind both. -/
theorem no_frame_forgets_to_acknowledge_multi :
    ∃ s, (frameMachine ⟨.critical, 2, 0⟩).run
        (.initial (ClientStart.fresh .hfiorMulti 64 rfl).ringState)
        ([.publish 0 0 (blankRecord 0 0), .announce .done .done .done].map
          (.loop ∘ .system) ++ .frame ::
          [.lockFrame .frameRing false, .load, .copy, .account 0, .push, .count, .finish .done,
            .lockFrame .frameRing false, .load, .finish .done, .takePending,
            .frameAck .done].map (.loop ∘ .system)) = some s ∧
      s.sent = [1] ∧ s.loop.system.client.localTail = 1 ∧
      s.loop.system.client.lastAckedTail = s.loop.system.client.localTail ∧
      s.sent.Pairwise (· < ·) := by
  have hrun : (frameMachine ⟨.critical, 2, 0⟩).run
      (.initial (ClientStart.fresh .hfiorMulti 64 rfl).ringState)
      ([.publish 0 0 (blankRecord 0 0), .announce .done .done .done].map
        (.loop ∘ .system) ++ .frame ::
        [.lockFrame .frameRing false, .load, .copy, .account 0, .push, .count, .finish .done,
          .lockFrame .frameRing false, .load, .finish .done, .takePending,
          .frameAck .done].map (.loop ∘ .system)) = some _ := rfl
  obtain ⟨hacked, hsent⟩ := no_frame_forgets_to_acknowledge _ _ hrun
  exact ⟨_, hrun, rfl, rfl, (hacked rfl rfl).1, hsent (by decide)⟩

end Hfior
