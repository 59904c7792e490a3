import Hfior.Bridge.Publish
import Hfior.Bridge.Control

/-!
# The bridge against any client

`bridgeMachine` runs the bridge with any records, any reconnects and any
received datagrams.  The ghost field `accepted` is the list of the records
that the ring took, record `p` at position `p`.

* `call_refines`: one call is at most one operation of the bounded log that
  the ring stands for;
* `represents_run`: the ring represents the accepted records along a run;
* `bridge_safe_against_any_client`: what this says about the header, and
  what a client can change.
-/

namespace Hfior

/-- The bridge, and all its publication attempts. -/
structure Serving where
  bridge : Bridge
  attempts : List Attempt

/-- The records that the ring has accepted. -/
def Serving.accepted (s : Serving) : List Record := acceptedRecords s.attempts

/-- One turn of the main loop of the bridge. -/
inductive BridgeCall where
  | publish (env : PublishEnv) (record : Record)
  | control (received : Except Errno (List UInt8)) (nowNs : UInt64)
      (urgent : IoResult)
  | gone (send urgent : IoResult)
  | reconnect (fd : Int32) (send urgent : IoResult)

/-- The effect of a call. -/
def Serving.call (s : Serving) : BridgeCall → Serving
  | .publish env record =>
    let p := publishRecord s.bridge env record
    { bridge := p.bridge, attempts := s.attempts ++ [p.attempt] }
  | .control received nowNs urgent =>
    { s with bridge := (handleControlMessage s.bridge received nowNs urgent).bridge }
  | .gone send urgent => { s with bridge := (markDeviceGone s.bridge send urgent).1 }
  | .reconnect fd send urgent =>
    { s with bridge := (tryReconnectDevice s.bridge fd send urgent).2.1 }

/-- The bridge, where every call may come next. -/
def bridgeMachine : Machine Serving BridgeCall where
  step s call := some (s.call call)

namespace Serving

variable {s t : Serving} {call : BridgeCall} {calls : List BridgeCall}

def head (s : Serving) : UInt64 := s.bridge.ring.producer.head

def tail (s : Serving) : UInt64 := s.bridge.ring.consumer.tail

/-! ## One call -/

/-- A call that leaves the window alone does nothing to the bounded log. -/
private theorem refines_of_sameWindow (h : Represents s.bridge.ring s.accepted)
    {b : Bridge} (hb : SameWindow s.bridge.ring b.ring) :
    ∃ h' : Represents b.ring s.accepted, ∃ ops,
      BoundedLog.machine.run h.window ops = some h'.window := by
  have h' := h.sameWindow hb
  refine ⟨h', [], ?_⟩
  rw [Machine.run_nil, h.window_eq h' hb]

/-- A publication attempt is an append, or nothing. -/
private theorem refines_of_attempt {b : Bridge} {a : Attempt}
    (h : Represents s.bridge.ring s.accepted)
    (h' : Represents b.ring (acceptedRecords (s.attempts ++ [a])))
    (hmeta : b.ring.metadata = s.bridge.ring.metadata)
    (htail : b.ring.consumer.tail = s.bridge.ring.consumer.tail) :
    ∃ ops, BoundedLog.machine.run h.window ops = some h'.window := by
  cases hpublished : a.published with
  | true =>
    have hextend : acceptedRecords (s.attempts ++ [a]) = s.accepted ++ [a.record] :=
      acceptedRecords_append_of_published hpublished
    have happend : Represents b.ring (s.accepted ++ [a.record]) := hextend ▸ h'
    refine ⟨[.append a.record], ?_⟩
    rw [h.run_append happend hmeta htail]
    simp only [Represents.window, hextend]
  | false =>
    have hextend : acceptedRecords (s.attempts ++ [a]) = s.accepted :=
      acceptedRecords_append_of_dropped hpublished
    refine ⟨[], ?_⟩
    simp only [Machine.run_nil, Represents.window, hextend, hmeta, htail]

/-- A received datagram is a release, or nothing. -/
private theorem control_refines (h : Represents s.bridge.ring s.accepted)
    (received : Except Errno (List UInt8)) (nowNs : UInt64) (urgent : IoResult) :
    ∃ h' : Represents (handleControlMessage s.bridge received nowNs
        urgent).bridge.ring s.accepted, ∃ ops,
      BoundedLog.machine.run h.window ops = some h'.window := by
  rcases handleControlMessage_cases s.bridge nowNs urgent received with
    ⟨datagram, -, hack, hbridge⟩ | ⟨datagram, -, -, hbridge⟩ | hquiet
  · obtain ⟨-, hlo, hhi⟩ := (ackValid_iff h).1 hack.valid
    rw [hbridge]
    have h' : Represents (acceptAck (countControlMessage s.bridge)
        (ackMessage datagram) nowNs).ring s.accepted :=
      h.release rfl rfl rfl hlo hhi
    exact ⟨h', _, h.run_release h' rfl hlo⟩
  · rw [hbridge]
    refine refines_of_sameWindow h ?_
    unfold handleSetMode
    split <;> exact ⟨rfl, rfl, rfl, rfl⟩
  · exact refines_of_sameWindow h hquiet.window

/-- A call is at most one operation of the bounded log. -/
theorem call_refines (h : Represents s.bridge.ring s.accepted)
    (call : BridgeCall) (hlt : (s.call call).accepted.length < 2 ^ 64) :
    ∃ h' : Represents (s.call call).bridge.ring (s.call call).accepted, ∃ ops,
      BoundedLog.machine.run h.window ops = some h'.window := by
  cases call with
  | publish env record =>
    have h' := represents_publishRecord h env record hlt
    exact ⟨h', refines_of_attempt h h' (publishRecord_metadata _ env record)
      (publishRecord_consumer_tail _ env record)⟩
  | control received nowNs urgent => exact control_refines h received nowNs urgent
  | gone send urgent =>
    exact refines_of_sameWindow h (quiet_markDeviceGone _ send urgent).window
  | reconnect fd send urgent =>
    refine refines_of_sameWindow h ?_
    rcases tryReconnectDevice_cases s.bridge send urgent fd with hquiet | hnext
    · exact hquiet.window
    · exact hnext.window

/-- The accepted records only grow. -/
theorem accepted_prefix_call (s : Serving) (call : BridgeCall) :
    s.accepted <+: (s.call call).accepted := by
  cases call with
  | publish env record => exact acceptedRecords_prefix_append
  | control received nowNs urgent => exact List.prefix_refl _
  | gone send urgent => exact List.prefix_refl _
  | reconnect fd send urgent => exact List.prefix_refl _

/-- The attempts stay numbered. -/
theorem numbered_call (h : Numbered s.bridge.ring s.attempts)
    (call : BridgeCall) (hlt : (s.call call).attempts.length + 1 < 2 ^ 64) :
    Numbered (s.call call).bridge.ring (s.call call).attempts := by
  cases call with
  | publish env record =>
    simp only [Serving.call, List.length_append, List.length_singleton] at hlt ⊢
    exact numbered_publishRecord h env record hlt
  | control received nowNs urgent =>
    exact h.sameLedger (sameLedger_handleControlMessage _ nowNs urgent received)
  | gone send urgent =>
    exact h.sameLedger (quiet_markDeviceGone s.bridge send urgent).ledger
  | reconnect fd send urgent =>
    rcases tryReconnectDevice_cases s.bridge send urgent fd with hquiet | hnext
    · exact h.sameLedger hquiet.ledger
    · exact h.sameLedger hnext.ledger

theorem attempts_prefix_call (s : Serving) (call : BridgeCall) :
    s.attempts <+: (s.call call).attempts := by
  cases call with
  | publish env record => exact List.prefix_append _ _
  | control received nowNs urgent => exact List.prefix_refl _
  | gone send urgent => exact List.prefix_refl _
  | reconnect fd send urgent => exact List.prefix_refl _

/-! ## Runs -/

/-- The ring represents the accepted records in every state of a run. -/
theorem represents_run (h : Represents s.bridge.ring s.accepted)
    (hrun : bridgeMachine.run s calls = some t)
    (hlt : t.accepted.length < 2 ^ 64) :
    Represents t.bridge.ring t.accepted := by
  have hmono : ∀ u c v, bridgeMachine.step u c = some v →
      u.accepted.length ≤ v.accepted.length := by
    intro u c v hstep
    cases hstep
    exact (accepted_prefix_call u c).length_le
  have hkeep : ∀ u c v, Represents u.bridge.ring u.accepted →
      v.accepted.length < 2 ^ 64 → bridgeMachine.step u c = some v →
      Represents v.bridge.ring v.accepted := by
    intro u c v hu hv hstep
    cases hstep
    exact (call_refines hu c hv).1
  exact Machine.run_invariant_below (fun u => Represents u.bridge.ring u.accepted)
    (fun u => u.accepted.length) hmono hkeep h hrun hlt

/-- The attempts are numbered in every state of a run. -/
theorem numbered_run (h : Numbered s.bridge.ring s.attempts)
    (hrun : bridgeMachine.run s calls = some t)
    (hlt : t.attempts.length + 1 < 2 ^ 64) :
    Numbered t.bridge.ring t.attempts := by
  have hmono : ∀ u c v, bridgeMachine.step u c = some v →
      u.attempts.length + 1 ≤ v.attempts.length + 1 := by
    intro u c v hstep
    cases hstep
    exact Nat.succ_le_succ (attempts_prefix_call u c).length_le
  have hkeep : ∀ u c v, Numbered u.bridge.ring u.attempts →
      v.attempts.length + 1 < 2 ^ 64 → bridgeMachine.step u c = some v →
      Numbered v.bridge.ring v.attempts := by
    intro u c v hu hv hstep
    cases hstep
    exact numbered_call hu c hv
  exact Machine.run_invariant_below
    (fun u => Numbered u.bridge.ring u.attempts)
    (fun u => u.attempts.length + 1) hmono hkeep h hrun hlt

/-! ## What a client cannot do -/

/-- The header is sane, and position `p` of the window is still the record
accepted at `p`. -/
structure WindowSafe (s : Serving) : Prop where
  tail_le_head : s.tail ≤ s.head
  head_le : s.head.toNat ≤
    s.tail.toNat + s.bridge.ring.metadata.capacity.toNat
  head_eq : s.head.toNat = s.accepted.length
  slots : ∀ p : UInt64, s.tail ≤ p → p < s.head →
    s.accepted[p.toNat]? =
      some (s.bridge.ring.records (slotIndex s.bridge.ring.metadata.capacity p))

/-- A datagram of exactly the ACK size that carries the current generation
and a position from the tail to the head. -/
structure IsCurrentAck (s : Serving) (datagram : List UInt8) : Prop where
  length : datagram.length = sizeofAckMessage
  type : (messageHeader datagram).type = HFIOR_MSG_ACK
  size : (messageHeader datagram).size = UInt32.ofNat sizeofAckMessage
  generation : (ackMessage datagram).generation = s.bridge.generation
  tail_le : s.tail ≤ (ackMessage datagram).consumedTail
  le_head : (ackMessage datagram).consumedTail ≤ s.head

/-- What a call may do: the positions and the accepted records only grow,
only a current ACK moves the tail, and a datagram that is not a current ACK
and not a valid SET_MODE leaves the window and the mode alone. -/
structure CallSafe (s : Serving) (call : BridgeCall) (t : Serving) : Prop where
  head_le : s.head ≤ t.head
  tail_le : s.tail ≤ t.tail
  accepted : s.accepted <+: t.accepted
  tail_change : t.tail ≠ s.tail → ∃ datagram nowNs urgent,
    call = .control (.ok datagram) nowNs urgent ∧ IsCurrentAck s datagram ∧
      t.tail = (ackMessage datagram).consumedTail
  rejected : ∀ received nowNs urgent, call = .control received nowNs urgent →
    (∀ datagram, received = .ok datagram →
      ¬ IsCurrentAck s datagram ∧ ¬ AcceptedSetMode datagram) →
    SameWindow s.bridge.ring t.bridge.ring ∧ t.bridge.mode = s.bridge.mode

theorem windowSafe_of_represents (h : Represents s.bridge.ring s.accepted) :
    WindowSafe s where
  tail_le_head := h.tail_le_head
  head_le := by
    rw [head, h.head]
    exact h.le_tail
  head_eq := h.head
  slots := by
    intro p hlo hhi
    rw [head, UInt64.lt_iff_toNat_lt, h.head] at hhi
    rw [tail, UInt64.le_iff_toNat_le] at hlo
    rw [slotIndex_eq_mod h.pow2, h.stores p.toNat hhi hlo,
      List.getElem?_eq_getElem hhi]

/-- The two readings of an ACK that the bridge accepts. -/
theorem isCurrentAck_iff (h : Represents s.bridge.ring s.accepted)
    (datagram : List UInt8) :
    IsCurrentAck s datagram ↔ AcceptedAck s.bridge datagram := by
  constructor
  · rintro ⟨hlength, htype, hsize, hgen, hlo, hhi⟩
    rw [tail, UInt64.le_iff_toNat_le] at hlo
    rw [head, UInt64.le_iff_toNat_le, h.head] at hhi
    exact ⟨hlength, htype, hsize, (ackValid_iff h).2 ⟨hgen, hlo, hhi⟩⟩
  · rintro ⟨hlength, htype, hsize, hvalid⟩
    obtain ⟨hgen, hlo, hhi⟩ := (ackValid_iff h).1 hvalid
    refine ⟨hlength, htype, hsize, hgen, ?_, ?_⟩
    · rw [tail, UInt64.le_iff_toNat_le]
      exact hlo
    · rw [head, UInt64.le_iff_toNat_le, h.head]
      exact hhi

/-- Only an accepted ACK moves the tail. -/
private theorem tail_change_aux (h : Represents s.bridge.ring s.accepted)
    (call : BridgeCall) (htail : (s.call call).tail ≠ s.tail) :
    ∃ datagram nowNs urgent, call = .control (.ok datagram) nowNs urgent ∧
      IsCurrentAck s datagram ∧
      (s.call call).tail = (ackMessage datagram).consumedTail := by
  cases call with
  | publish env record =>
    exact absurd (publishRecord_consumer_tail s.bridge env record) htail
  | gone send urgent =>
    exact absurd (quiet_markDeviceGone s.bridge send urgent).window.tail htail
  | reconnect fd send urgent =>
    rcases tryReconnectDevice_cases s.bridge send urgent fd with hquiet | hnext
    · exact absurd hquiet.window.tail htail
    · exact absurd hnext.window.tail htail
  | control received nowNs urgent =>
    rcases handleControlMessage_cases s.bridge nowNs urgent received with
      ⟨datagram, rfl, hack, hbridge⟩ | ⟨datagram, -, -, hbridge⟩ | hquiet
    · refine ⟨datagram, nowNs, urgent, rfl, (isCurrentAck_iff h datagram).2 hack, ?_⟩
      simp only [call, tail, hbridge]
      rfl
    · refine absurd ?_ htail
      simp only [call, tail, hbridge, handleSetMode]
      split <;> rfl
    · exact absurd hquiet.window.tail htail

/-- Every call is safe as long as the head does not wrap. -/
theorem callSafe_call (h : Represents s.bridge.ring s.accepted)
    (call : BridgeCall) (hlt : (s.call call).accepted.length < 2 ^ 64) :
    CallSafe s call (s.call call) := by
  obtain ⟨h', ops, hops⟩ := call_refines h call hlt
  have hle : h.window ≤ h'.window := BoundedLog.machine_mono hops
  refine ⟨?_, ?_, hle.2.1, tail_change_aux h call, ?_⟩
  · rw [UInt64.le_iff_toNat_le, head, head, h.head, h'.head]
    exact BoundedLog.head_le_of_le hle
  · rw [UInt64.le_iff_toNat_le]
    exact BoundedLog.tail_le_of_le hle
  · rintro received nowNs urgent rfl hnone
    rcases handleControlMessage_cases s.bridge nowNs urgent received with
      ⟨datagram, hok, hack, -⟩ | ⟨datagram, hok, hmode, -⟩ | hquiet
    · exact absurd ((isCurrentAck_iff h datagram).2 hack) (hnone datagram hok).1
    · exact absurd hmode (hnone datagram hok).2
    · exact ⟨hquiet.window, hquiet.mode⟩

end Serving

/-- From a fresh mapping, in every state that the bridge reaches with fewer
than 2^64 accepted records, the header is sane and the window holds the
accepted records, and every further call is safe.  The calls, the records
and the bytes of the datagrams are arbitrary. -/
theorem bridge_safe_against_any_client {b : Bridge} {size features nowNs : UInt64}
    {capacity : UInt32} {device : DeviceIdentity}
    (hinit : initializeMapping size capacity features device b.generation nowNs =
      .ok b.ring)
    {calls : List BridgeCall} {s : Serving}
    (hrun : bridgeMachine.run ⟨b, []⟩ calls = some s)
    (hlt : s.accepted.length < 2 ^ 64) :
    s.WindowSafe ∧
      ∀ call t, bridgeMachine.step s call = some t →
        t.accepted.length < 2 ^ 64 → s.CallSafe call t := by
  have hfresh : Represents b.ring [] := (represents_initializeMapping hinit).1
  have h := Serving.represents_run (s := ⟨b, []⟩) hfresh hrun hlt
  refine ⟨Serving.windowSafe_of_represents h, ?_⟩
  intro call t hstep ht
  cases hstep
  exact Serving.callSafe_call h call ht

/-- A publication, a reconnect, and an ACK of the old generation. -/
def staleAckCalls : List BridgeCall :=
  [.publish quietEnv (blankRecord 0 HFIOR_RECORD_MOTION),
    .reconnect 7 .done .done,
    .control (.ok (AckMessage.bytes ⟨1, 1⟩)) 0 .done]

theorem bridge_safe_after_stale_ack :
    ∃ s, bridgeMachine.run ⟨freshBridge 64, []⟩ staleAckCalls = some s ∧
      s.WindowSafe ∧
      ∀ call t, bridgeMachine.step s call = some t →
        t.accepted.length < 2 ^ 64 → s.CallSafe call t := by
  have hinit : initializeMapping (mappingSize 64) 64 0 ⟨[], 0, 0, 0, 0⟩
      (freshBridge 64).generation 0 = .ok (freshBridge 64).ring := rfl
  have hrun : bridgeMachine.run ⟨freshBridge 64, []⟩ staleAckCalls = some _ := rfl
  exact ⟨_, hrun, bridge_safe_against_any_client hinit hrun (by decide)⟩

end Hfior
