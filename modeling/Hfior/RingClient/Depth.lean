import Hfior.RingClient.Invariant

/-!
# The observed depth of the ring

`hfior_ring_depth` loads the head and then the tail, and subtracts.  The
frame thread calls it behind its drains and without the mutex, so the
ingress thread may drain records above the loaded head, and the bridge may
move the tail behind them before the second load.

`depthMachine` runs the two loads between the steps of `ringMachine`.  The
field `readings` is a ghost.  `acksBelowHead` is the condition on the ACKs
that the bridge takes between the two loads.
-/

namespace Hfior

/-- The two loads of one call of `hfior_ring_depth`. -/
structure DepthReading where
  head : UInt64
  tail : UInt64
deriving DecidableEq, Repr

/-- What the call returns. -/
def DepthReading.value (r : DepthReading) : UInt64 := r.head - r.tail

/-- A depth that a ring can have: the subtraction does not wrap, and the
difference fits in the ring. -/
def DepthReading.Possible (capacity : UInt32) (r : DepthReading) : Prop :=
  r.tail ≤ r.head ∧ r.value ≤ capacity.toUInt64

structure DepthSystem where
  system : RingSystem
  /-- The head of a call whose tail load is still to come. -/
  loaded : Option UInt64
  readings : List DepthReading

namespace DepthSystem

/-- Before the first call. -/
def initial (s : RingSystem) : DepthSystem := ⟨s, none, []⟩

def loadHead (s : DepthSystem) : DepthSystem :=
  { s with loaded := some s.system.head }

def loadTail (s : DepthSystem) (head : UInt64) : DepthSystem :=
  { s with loaded := none, readings := s.readings ++ [⟨head, s.system.tail⟩] }

end DepthSystem

/-- The calls of the frame thread outside of a drain. -/
def RingLabel.ofFrame : RingLabel → Bool
  | .lockFrame .. | .takePending | .frameAck .. => true
  | _ => false

inductive DepthLabel where
  | system (label : RingLabel)
  | loadHead
  | loadTail
deriving DecidableEq

/-- One step.  The frame thread makes no other call between the two loads. -/
def depthStep (s : DepthSystem) : DepthLabel → Option DepthSystem
  | .system label =>
    if s.loaded = none ∨ label.ofFrame = false then
      (ringMachine.step s.system label).map fun system => { s with system := system }
    else none
  | .loadHead =>
    if s.loaded = none ∧ s.system.frameRuns = true then some s.loadHead else none
  | .loadTail => match s.loaded with
    | some head => some (s.loadTail head)
    | none => none

def depthMachine : Machine DepthSystem DepthLabel where
  step := depthStep

/-- Everything that a step can do. -/
inductive DepthStep (s : DepthSystem) : DepthLabel → DepthSystem → Prop
  | system {label system} (hstep : RingStep s.system label system) :
    DepthStep s (.system label) { s with system := system }
  | loadHead (hidle : s.loaded = none) : DepthStep s .loadHead s.loadHead
  | loadTail {head} (hloaded : s.loaded = some head) : DepthStep s .loadTail (s.loadTail head)

theorem depthStep_cases {s t : DepthSystem} {label : DepthLabel}
    (h : depthMachine.step s label = some t) : DepthStep s label t := by
  have h : depthStep s label = some t := h
  cases label with
  | system label =>
    simp only [depthStep] at h
    split at h
    · obtain ⟨system, hsystem, rfl⟩ := Option.map_eq_some_iff.1 h
      exact .system (ringStep_cases hsystem)
    · cases h
  | loadHead =>
    simp only [depthStep] at h
    split at h
    · rename_i hready
      obtain rfl := Option.some.inj h
      exact .loadHead hready.1
    · cases h
  | loadTail =>
    simp only [depthStep] at h
    split at h
    · obtain rfl := Option.some.inj h
      exact .loadTail ‹_›
    · cases h

/-- On a ring that does not change between the two loads, the value is that
of the function. -/
theorem depth_still (s : DepthSystem) :
    ∃ t, depthMachine.run s.loadHead [.loadTail] = some t ∧
      t.readings.getLast?.map DepthReading.value = some (ringDepth s.system.bridge.ring) := by
  refine ⟨_, Machine.run_cons.2 ⟨_, rfl, rfl⟩, ?_⟩
  show (s.readings ++ [_]).getLast?.map _ = _
  rw [List.getLast?_concat]
  rfl

/-! ## What a step does to the window -/

/-- A step keeps the capacity, and only an ACK that the bridge takes moves
the tail. -/
theorem RingStep.window {s t : RingSystem} {label : RingLabel} (h : RingStep s label t) :
    t.capacity = s.capacity ∧ (t.tail = s.tail ∨
      ∃ ack rest nowNs urgent, label = .deliver nowNs urgent ∧ s.channel = ack :: rest ∧
        ackValid (countControlMessage s.bridge) ack = true ∧ t.tail = ack.consumedTail) := by
  cases h with
  | @publish beginNs endNs record hidle =>
    have hmeta := publishAttempt_metadata s.bridge beginNs endNs record
    exact ⟨congrArg RingMetadata.capacity hmeta,
      .inl (publishAttempt_tail s.bridge beginNs endNs record)⟩
  | @announce a send dropUrgent urgent hattempt hallowed =>
    have hwindow := sameWindow_announce s.bridge a send dropUrgent urgent
    exact ⟨congrArg RingMetadata.capacity hwindow.metadata, .inl hwindow.tail⟩
  | @deliver ack rest nowNs urgent hchannel hallowed =>
    rw [RingSystem.deliver_eq]
    have hmeta := (handleAck_frame (countControlMessage s.bridge) ack nowNs urgent).1
    refine ⟨congrArg RingMetadata.capacity hmeta, ?_⟩
    by_cases hvalid : ackValid (countControlMessage s.bridge) ack = true
    · exact .inr ⟨ack, rest, nowNs, urgent, rfl, hchannel, hvalid,
        handleAck_tail_of_valid hvalid nowNs urgent⟩
    · rw [Bool.not_eq_true] at hvalid
      exact .inl (handleAck_tail_of_invalid hvalid nowNs urgent)
  | @gone send urgent hallowed =>
    have hwindow := (quiet_markDeviceGone s.bridge send urgent).window
    exact ⟨congrArg RingMetadata.capacity hwindow.metadata, .inl hwindow.tail⟩
  | @reconnect fd send urgent hallowed =>
    have hwindow : SameWindow s.bridge.ring
        (tryReconnectDevice s.bridge fd send urgent).2.1.ring := by
      rcases tryReconnectDevice_cases s.bridge send urgent fd with hquiet | hnext
      · exact hquiet.window
      · exact hnext.window
    exact ⟨congrArg RingMetadata.capacity hwindow.metadata, .inl hwindow.tail⟩
  | finish hdrain hphase hfinish =>
    obtain ⟨client, message, -, rfl⟩ := RingSystem.finish_withAck hfinish
    exact ⟨rfl, .inl rfl⟩
  | frameAck hfree hack =>
    obtain ⟨client, message, -, rfl⟩ := RingSystem.frameAck_withAck hfree hack
    exact ⟨rfl, .inl rfl⟩
  | _ => exact ⟨rfl, .inl rfl⟩

namespace DepthSystem

/-- The condition on a step between the two loads: the bridge takes no ACK
for a position above the loaded head. -/
def acksBelowHead (s : DepthSystem) : DepthLabel → Bool
  | .system (.deliver _ _) => match s.loaded, s.system.channel with
    | some head, ack :: _ =>
      ack.consumedTail ≤ head || !ackValid (countControlMessage s.system.bridge) ack
    | _, _ => true
  | _ => true

/-- The tail is within one lap below a loaded head. -/
structure DepthInv (s : DepthSystem) : Prop where
  base : RingInv s.system
  loaded : ∀ head, s.loaded = some head → s.system.tail.toNat ≤ head.toNat ∧
    head.toNat ≤ s.system.tail.toNat + s.system.capacity.toNat
  readings : ∀ r ∈ s.readings, r.Possible s.system.capacity

namespace DepthInv

variable {s t : DepthSystem}

theorem system (h : DepthInv s) {label : RingLabel} {system : RingSystem}
    (hstep : RingStep s.system label system)
    (hbelow : s.acksBelowHead (.system label) = true)
    (hlt : system.attempts.length + 1 < 2 ^ 64) :
    DepthInv { s with system := system } := by
  obtain ⟨hcapacity, htail⟩ := hstep.window
  have hnext := h.base.step hstep hlt
  refine ⟨hnext, ?_, ?_⟩
  · intro head hloaded
    have hloaded : s.loaded = some head := hloaded
    obtain ⟨hlo, hhi⟩ := h.loaded head hloaded
    show system.tail.toNat ≤ _ ∧ _ ≤ system.tail.toNat + system.capacity.toNat
    rw [hcapacity]
    rcases htail with heq | ⟨ack, rest, nowNs, urgent, rfl, hchannel, hvalid, heq⟩
    · rw [heq]
      exact ⟨hlo, hhi⟩
    · have hle : ack.consumedTail.toNat ≤ head.toNat := by
        simpa [acksBelowHead, hloaded, hchannel, hvalid, UInt64.le_iff_toNat_le] using hbelow
      have hacks := h.base.acks
      rw [hchannel] at hacks
      have hmono := hacks.head_bounds.1
      rw [heq]
      omega
  · intro r hr
    show r.Possible system.capacity
    rw [hcapacity]
    exact h.readings r hr

theorem loadHead (h : DepthInv s) : DepthInv s.loadHead := by
  refine ⟨h.base, ?_, h.readings⟩
  intro head hloaded
  obtain rfl := Option.some.inj hloaded
  have hhead : s.system.head.toNat = s.system.accepted.length := h.base.ring.head
  show s.system.tail.toNat ≤ s.system.head.toNat ∧ _
  rw [hhead]
  exact ⟨h.base.ring.tail_le, h.base.ring.le_tail⟩

theorem loadTail (h : DepthInv s) {head : UInt64} (hloaded : s.loaded = some head) :
    DepthInv (s.loadTail head) := by
  refine ⟨h.base, fun _ hnone => (by cases hnone), ?_⟩
  intro r hr
  rcases List.mem_append.1 hr with hold | hnew
  · exact h.readings r hold
  · rw [List.eq_of_mem_singleton hnew]
    obtain ⟨hlo, hhi⟩ := h.loaded head hloaded
    have hle : s.system.tail ≤ head := UInt64.le_iff_toNat_le.2 hlo
    refine ⟨hle, ?_⟩
    show head - s.system.tail ≤ s.system.capacity.toUInt64
    rw [UInt64.le_iff_toNat_le, UInt64.toNat_sub_of_le _ _ hle, UInt32.toNat_toUInt64]
    omega

theorem step (h : DepthInv s) {label : DepthLabel} (hstep : DepthStep s label t)
    (hbelow : s.acksBelowHead label = true) (hlt : t.system.attempts.length + 1 < 2 ^ 64) :
    DepthInv t := by
  cases hstep with
  | system hstep => exact h.system hstep hbelow hlt
  | loadHead hidle => exact h.loadHead
  | loadTail hloaded => exact h.loadTail hloaded

end DepthInv

end DepthSystem

/-! ## Runs -/

theorem depthMachine_mono {s t : DepthSystem} {label : DepthLabel}
    (hstep : depthMachine.step s label = some t) :
    s.system.attempts.length + 1 ≤ t.system.attempts.length + 1 := by
  cases depthStep_cases hstep with
  | system hsystem => exact Nat.succ_le_succ hsystem.attempts_extend.length_le
  | loadHead | loadTail => exact Nat.le_refl _

/-- The machine whose steps meet the condition. -/
def belowHeadMachine : Machine DepthSystem DepthLabel :=
  depthMachine.guard fun s label => s.acksBelowHead label = true

/-- What the frame thread should see. -/
def DepthsPossible (s : DepthSystem) : Prop :=
  ∀ r ∈ s.readings, r.Possible s.system.capacity

/-- From every start of a client, in every run in which no ACK above the
loaded head is taken between the two loads, every observed depth is a
possible one. -/
theorem depths_possible_of_acks_below (x : ClientStart) {labels : List DepthLabel}
    {s : DepthSystem}
    (hrun : belowHeadMachine.run (.initial x.ringState) labels = some s)
    (hlt : s.system.attempts.length + 1 < 2 ^ 64) : DepthsPossible s := by
  have hinitial : x.attempts.length + 1 < 2 ^ 64 →
      (DepthSystem.initial x.ringState).DepthInv := by
    intro hstart
    refine ⟨x.ringInv hstart, ?_, ?_⟩
    · intro head hnone
      cases hnone
    · intro r hmem
      cases hmem
  have hmono : ∀ u label v, belowHeadMachine.step u label = some v →
      u.system.attempts.length + 1 ≤ v.system.attempts.length + 1 :=
    fun _ _ _ hstep => depthMachine_mono (Machine.guard_step.1 hstep).2
  have hstart : x.attempts.length + 1 ≤ s.system.attempts.length + 1 :=
    Machine.run_mono hmono hrun
  have hinv : s.DepthInv := by
    refine Machine.run_invariant_below DepthSystem.DepthInv
      (fun u => u.system.attempts.length + 1) hmono ?_
      (hinitial (Nat.lt_of_le_of_lt hstart hlt)) hrun hlt
    intro u label v hu hv hstep
    obtain ⟨hbelow, hstep⟩ := Machine.guard_step.1 hstep
    exact hu.step (depthStep_cases hstep) hbelow hv
  exact hinv.readings

/-- A button record is published, and the ingress thread drains and
acknowledges it. -/
def urgentDrain : List DepthLabel :=
  [.publish 0 0 (blankRecord 0 HFIOR_RECORD_BUTTON), .announce .done .done .done,
    .readUrgent, .lockUrgent, .load, .copy, .account 0, .push, .count,
    .finish .done].map .system

theorem depths_possible_urgent :
    ∃ s, belowHeadMachine.run (.initial (ClientStart.fresh .hfiorLate 64 rfl).ringState)
      (.loadHead :: urgentDrain ++ [.loadTail, .system (.deliver 0 .done)]) = some s ∧
      DepthsPossible s := by
  have hrun : belowHeadMachine.run (.initial (ClientStart.fresh .hfiorLate 64 rfl).ringState)
      (.loadHead :: urgentDrain ++ [.loadTail, .system (.deliver 0 .done)]) = some _ := rfl
  exact ⟨_, hrun, depths_possible_of_acks_below _ hrun (by decide)⟩

/-- The same with the ACK before the tail load: the subtraction wraps. -/
theorem depth_wraps : ¬ ∀ labels s,
    depthMachine.run (.initial (ClientStart.fresh .hfiorLate 64 rfl).ringState) labels = some s →
      DepthsPossible s := by
  intro h
  have hrun : depthMachine.run (.initial (ClientStart.fresh .hfiorLate 64 rfl).ringState)
      (.loadHead :: urgentDrain ++ [.system (.deliver 0 .done), .loadTail]) = some _ := rfl
  have hpossible := h _ _ hrun ⟨0, 1⟩ (List.mem_singleton.2 rfl)
  exact absurd hpossible.1 (by decide)

end Hfior
