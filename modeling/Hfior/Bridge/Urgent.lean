import Hfior.Bridge.Control
import Hfior.Bridge.Publish

/-!
# The counter of the urgent eventfd

The bridge adds one to a non-blocking eventfd.  `eventfdAllows` says what
such a write may return, and `announceAllowed` says it for the two writes of
one `publish_record`.

Under these conditions a write leaves the counter above zero, whether it
succeeds or not, and no function of the bridge brings it back to zero.
-/

namespace Hfior

/-- The largest value of an eventfd counter. -/
def eventfdMax : UInt64 := 0xfffffffffffffffe

/-- What a write of 1 may return: it fails only with `EAGAIN`, and only on
a counter that is not zero. -/
def eventfdAllows (counter : UInt64) : IoResult → Bool
  | .done => counter < eventfdMax
  | .failed .EAGAIN => counter != 0
  | .failed _ => false

/-- The bridge between the eager copy of a record and its urgent write. -/
def eagerCopy (b : Bridge) (a : Attempt) (send dropUrgent : IoResult) : Bridge :=
  if a.published then (sendEagerRecord b a.record send dropUrgent).1 else b

/-- What the two eventfd writes of an announcement may return. -/
def announceAllowed (b : Bridge) (a : Attempt)
    (send dropUrgent urgent : IoResult) : Bool :=
  eventfdAllows b.urgentFd dropUrgent &&
    eventfdAllows (eagerCopy b a send dropUrgent).urgentFd urgent

section
variable {b : Bridge} {urgent : IoResult}

/-- A write leaves the counter above zero. -/
theorem writeUrgent_urgentFd (h : eventfdAllows b.urgentFd urgent = true) :
    (writeUrgent b urgent).urgentFd ≠ 0 := by
  cases urgent with
  | done =>
    have hlt : b.urgentFd.toNat < eventfdMax.toNat :=
      UInt64.lt_iff_toNat_lt.1 (decide_eq_true_eq.mp h)
    have hmax : eventfdMax.toNat + 2 = 2 ^ 64 := rfl
    show b.urgentFd + 1 ≠ 0
    rw [ne_eq, ← UInt64.toNat_inj, UInt64.toNat_add, UInt64.toNat_one,
      UInt64.toNat_zero, Nat.mod_eq_of_lt (by omega)]
    omega
  | failed errno =>
    cases errno with
    | EAGAIN => exact bne_iff_ne.1 h
    | _ => cases h

theorem handleAck_urgentFd (ack : AckMessage) (nowNs : UInt64)
    (h : eventfdAllows b.urgentFd urgent = true) (hpos : b.urgentFd ≠ 0) :
    (handleAck b ack nowNs urgent).urgentFd ≠ 0 := by
  unfold handleAck
  split
  · exact hpos
  · exact writeUrgent_urgentFd (b := countInvalidAck b) h

theorem sendDeviceState_urgentFd (flags : UInt16) (send : IoResult)
    (h : eventfdAllows b.urgentFd urgent = true) (hpos : b.urgentFd ≠ 0) :
    (sendDeviceState b flags send urgent).1.urgentFd ≠ 0 := by
  unfold sendDeviceState
  split
  · exact hpos
  · exact writeUrgent_urgentFd h

theorem markDeviceGone_urgentFd (send : IoResult)
    (h : eventfdAllows b.urgentFd urgent = true) (hpos : b.urgentFd ≠ 0) :
    (markDeviceGone b send urgent).1.urgentFd ≠ 0 :=
  sendDeviceState_urgentFd (b := closeInputDevice b) _ send h hpos

theorem tryReconnectDevice_urgentFd (fd : Int32) (send : IoResult)
    (h : eventfdAllows b.urgentFd urgent = true) (hpos : b.urgentFd ≠ 0) :
    (tryReconnectDevice b fd send urgent).2.1.urgentFd ≠ 0 := by
  unfold tryReconnectDevice
  split
  · exact hpos
  · rename_i hdevice
    rw [openInputDevice, if_neg hdevice]
    split
    · exact hpos
    · exact sendDeviceState_urgentFd
        (b := bumpGeneration { b with inputFd := fd, sourceReady := true })
        _ send h hpos

theorem sendEagerRecord_urgentFd (record : Record) (send : IoResult)
    (h : eventfdAllows b.urgentFd urgent = true) (hpos : b.urgentFd ≠ 0) :
    (sendEagerRecord b record send urgent).1.urgentFd ≠ 0 := by
  have hdrop : (writeUrgent (countEagerDrop b) urgent).urgentFd ≠ 0 :=
    writeUrgent_urgentFd (b := countEagerDrop b) h
  unfold sendEagerRecord
  split
  · exact hpos
  · split
    · exact hpos
    · exact hdrop
    · exact hdrop
    all_goals exact hpos

variable {a : Attempt} {send dropUrgent : IoResult}

/-- An announcement leaves the counter above zero, if its record is urgent
or the counter was above zero before. -/
theorem announce_urgentFd
    (h : announceAllowed b a send dropUrgent urgent = true)
    (hpos : b.urgentFd ≠ 0 ∨ a.record.has urgentFlags = true) :
    (announce b a send dropUrgent urgent).1.urgentFd ≠ 0 := by
  rw [announceAllowed, Bool.and_eq_true] at h
  obtain ⟨hdrop, hurgent⟩ := h
  have hsplit : (announce b a send dropUrgent urgent).1 =
      announceUrgent (eagerCopy b a send dropUrgent) a urgent := by
    simp only [announce, eagerCopy]
    split <;> rfl
  rw [hsplit, announceUrgent]
  split
  · rename_i hquiet
    rw [Bool.and_eq_true, Bool.not_eq_true'] at hquiet
    obtain ⟨hpublished, hplain⟩ := hquiet
    rcases hpos with hpos | hflags
    · rw [eagerCopy, if_pos hpublished]
      exact sendEagerRecord_urgentFd a.record send hdrop hpos
    · rw [hflags] at hplain
      cases hplain
  · exact writeUrgent_urgentFd hurgent

end

end Hfior
