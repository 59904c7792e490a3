import Hfior.Bridge.Safety
import Hfior.Client.Basic

/-!
# Where a client comes in

A client connects to a bridge that has been running on its ring, and it
chooses a first position.  `synchronize_start` chooses the head.

The generation of the client is that of the hello, and the bridge may have
reconnected since.  What the bridge has sent behind STARTED is still in the
socket.
-/

namespace Hfior

/-- A bridge that has run from a fresh mapping, and a first position in its
window. -/
structure ClientStart where
  bridge : Bridge
  attempts : List Attempt
  policy : ClientPolicy
  /-- The generation of the hello. -/
  generation : UInt64
  /-- The messages that the client has not read. -/
  unread : List BridgeMessage
  position : UInt64
  reached : ∃ (b : Bridge) (size features nowNs : UInt64) (capacity : UInt32)
    (device : DeviceIdentity) (calls : List BridgeCall),
    initializeMapping size capacity features device b.generation nowNs = .ok b.ring ∧
    bridgeMachine.run ⟨b, []⟩ calls = some ⟨bridge, attempts⟩
  tail_le : bridge.ring.consumer.tail ≤ position
  le_head : position ≤ bridge.ring.producer.head

namespace ClientStart

theorem represents (x : ClientStart) (hlt : x.attempts.length + 1 < 2 ^ 64) :
    Represents x.bridge.ring (acceptedRecords x.attempts) := by
  obtain ⟨b, size, features, nowNs, capacity, device, calls, hinit, hrun⟩ := x.reached
  have hfresh : Represents b.ring [] := (represents_initializeMapping hinit).1
  have haccepted : (acceptedRecords x.attempts).length < 2 ^ 64 := by
    have : (acceptedRecords x.attempts).length ≤ x.attempts.length :=
      acceptedRecords_length_le
    omega
  exact Serving.represents_run (s := ⟨b, []⟩) hfresh hrun haccepted

theorem numbered (x : ClientStart) (hlt : x.attempts.length + 1 < 2 ^ 64) :
    Numbered x.bridge.ring x.attempts := by
  obtain ⟨b, size, features, nowNs, capacity, device, calls, hinit, hrun⟩ := x.reached
  have hzero : Numbered b.ring [] := numbered_initializeMapping hinit
  exact Serving.numbered_run (s := ⟨b, []⟩) hzero hrun hlt

/-- A client at the head of a fresh ring of the given capacity, behind the
hello. -/
def fresh (policy : ClientPolicy) (capacity : UInt32)
    (h : isPowerOfTwoU32 capacity = true) : ClientStart where
  bridge := freshBridge capacity
  attempts := []
  policy := policy
  generation := (freshBridge capacity).generation
  unread := []
  position := 0
  reached := by
    refine ⟨freshBridge capacity, mappingSize capacity, 0, 0, capacity,
      ⟨[], 0, 0, 0, 0⟩, [], ?_, rfl⟩
    rw [initializeMapping, h, if_neg]
    · rfl
    · simp
  tail_le := UInt64.le_refl _
  le_head := UInt64.le_refl _

end ClientStart

end Hfior
