import Hfior.Bridge.Control
import Mathlib.Data.List.Pairwise

/-!
# Acknowledgements in flight

A reader sends positions that only go up, over a FIFO channel, and the
bridge rejects an ACK or moves its tail there.  So the tail, the positions
in flight and the last position sent are in order (`AcksInOrder`), and
`AcksInOrder.deliver` keeps them in order.  `lastAck` is where the tail
ends up when no ACK is rejected.
-/

namespace Hfior

/-- The tail, the ACKs in flight and the acknowledged tail are in order. -/
def AcksInOrder (tail : Nat) (channel : List AckMessage) (acknowledged : Nat) :
    Prop :=
  List.Pairwise (· ≤ ·)
    (tail :: (channel.map fun a => a.consumedTail.toNat) ++ [acknowledged])

/-- The position that the tail of the ring reaches once the ACKs in flight
are delivered. -/
def lastAck (tail : UInt64) : List AckMessage → UInt64
  | [] => tail
  | ack :: rest => lastAck ack.consumedTail rest

theorem lastAck_append (tail : UInt64) (channel : List AckMessage)
    (ack : AckMessage) : lastAck tail (channel ++ [ack]) = ack.consumedTail := by
  induction channel generalizing tail with
  | nil => rfl
  | cons a rest ih => exact ih a.consumedTail

namespace AcksInOrder

variable {tail acknowledged : Nat} {ack : AckMessage} {channel : List AckMessage}

theorem nil_iff : AcksInOrder tail [] acknowledged ↔ tail ≤ acknowledged := by
  simp [AcksInOrder]

theorem tail_le (h : AcksInOrder tail channel acknowledged) :
    tail ≤ acknowledged := by
  rw [AcksInOrder, List.cons_append, List.pairwise_cons] at h
  exact h.1 _ (by simp)

theorem head_bounds (h : AcksInOrder tail (ack :: channel) acknowledged) :
    tail ≤ ack.consumedTail.toNat ∧ ack.consumedTail.toNat ≤ acknowledged := by
  rw [AcksInOrder, List.map_cons, List.cons_append, List.pairwise_cons] at h
  obtain ⟨hfirst, hrest⟩ := h
  rw [List.cons_append, List.pairwise_cons] at hrest
  exact ⟨hfirst _ (by simp), hrest.1 _ (by simp)⟩

/-- An accepted ACK becomes the tail. -/
theorem accept (h : AcksInOrder tail (ack :: channel) acknowledged) :
    AcksInOrder ack.consumedTail.toNat channel acknowledged := by
  rw [AcksInOrder, List.map_cons, List.cons_append, List.pairwise_cons] at h
  exact h.2

/-- A rejected ACK disappears. -/
theorem reject (h : AcksInOrder tail (ack :: channel) acknowledged) :
    AcksInOrder tail channel acknowledged := by
  refine List.Pairwise.sublist ?_ h
  exact (((List.Sublist.refl _).cons _).cons_cons _).append_right _

/-- A new ACK is sent behind all others. -/
theorem send (h : AcksInOrder tail channel acknowledged) (ack : AckMessage)
    (hle : acknowledged ≤ ack.consumedTail.toNat) :
    AcksInOrder tail (channel ++ [ack]) ack.consumedTail.toNat := by
  have hbelow : ∀ x ∈ tail :: channel.map (fun a => a.consumedTail.toNat),
      x ≤ ack.consumedTail.toNat := by
    intro x hx
    exact (List.pairwise_append.1 h).2.2 x hx acknowledged (by simp) |>.trans hle
  rw [AcksInOrder, List.map_append, ← List.cons_append, List.append_assoc,
    List.pairwise_append]
  refine ⟨(List.pairwise_append.1 h).1, by simp, ?_⟩
  intro x hx y hy
  have : y = ack.consumedTail.toNat := by simpa using hy
  exact this ▸ hbelow x hx

variable {b : Bridge}

/-- The bridge takes the oldest ACK.  The tail does not go down. -/
theorem deliver
    (h : AcksInOrder b.ring.consumer.tail.toNat (ack :: channel) acknowledged)
    (nowNs : UInt64) (urgent : IoResult) :
    AcksInOrder (handleAck b ack nowNs urgent).ring.consumer.tail.toNat channel
        acknowledged ∧
      b.ring.consumer.tail.toNat ≤
        (handleAck b ack nowNs urgent).ring.consumer.tail.toNat := by
  cases hvalid : ackValid b ack with
  | true =>
    rw [handleAck_tail_of_valid hvalid]
    exact ⟨h.accept, h.head_bounds.1⟩
  | false =>
    rw [handleAck_tail_of_invalid hvalid]
    exact ⟨h.reject, Nat.le_refl _⟩

end AcksInOrder

end Hfior
