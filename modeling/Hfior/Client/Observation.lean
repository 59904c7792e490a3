import Hfior.Client.Basic

/-!
# The observation of a frame

`summarize_records` folds the records that a frame has taken into the newest
and the oldest of them, over one or more calls of `take_pending`.  The rest of
`struct frame_observation` is computed from the summary, from clock reads and
from loads of the shared positions, and `write_frame` classifies a late one.

`RecordSummary.Of` says what the fold has found: the newest record is the
greatest by its timestamp, and by its sequence among equal timestamps.
-/

namespace Hfior

/-! ## The summary -/

/-- The four results of `summarize_records`. -/
structure RecordSummary where
  newest : UInt64
  newestSequence : UInt64
  oldest : UInt64
  buttons : UInt64
deriving DecidableEq, Repr

/-- Before the first record. -/
def RecordSummary.empty : RecordSummary := ⟨0, 0, UInt64.ofNat (2 ^ 64 - 1), 0⟩

/-- The record is newer than a timestamp with a sequence. -/
def Record.newer (record : Record) (newest newestSequence : UInt64) : Bool :=
  record.timestampNs > newest ||
    (record.timestampNs == newest && record.sequence > newestSequence)

def RecordSummary.noteNewest (s : RecordSummary) (record : Record) : RecordSummary :=
  if record.newer s.newest s.newestSequence then
    { s with newest := record.timestampNs, newestSequence := record.sequence }
  else s

def RecordSummary.noteOldest (s : RecordSummary) (record : Record) : RecordSummary :=
  if record.timestampNs < s.oldest then { s with oldest := record.timestampNs } else s

def RecordSummary.noteButton (s : RecordSummary) (record : Record) : RecordSummary :=
  if record.has HFIOR_RECORD_BUTTON then { s with buttons := s.buttons + 1 } else s

/-- The body of the loop of `summarize_records`. -/
def RecordSummary.note (s : RecordSummary) (record : Record) : RecordSummary :=
  ((s.noteNewest record).noteOldest record).noteButton record

/-- `summarize_records`. -/
def summarizeRecords (records : List Record) (s : RecordSummary) : RecordSummary :=
  records.foldl RecordSummary.note s

/-- What the summary says about the records. -/
structure RecordSummary.Of (s : RecordSummary) (records : List Record) : Prop where
  newest_le : ∀ record ∈ records, record.newer s.newest s.newestSequence = false
  newest_mem : (s.newest = 0 ∧ s.newestSequence = 0) ∨
    ∃ record ∈ records, record.timestampNs = s.newest ∧ record.sequence = s.newestSequence
  oldest_le : ∀ record ∈ records, s.oldest ≤ record.timestampNs
  oldest_mem : s.oldest = RecordSummary.empty.oldest ∨
    ∃ record ∈ records, record.timestampNs = s.oldest
  buttons : s.buttons = UInt64.ofNat (records.countP (Record.has · HFIOR_RECORD_BUTTON))

section
variable {record : Record} {newest newestSequence : UInt64}

theorem Record.newer_iff : record.newer newest newestSequence = true ↔
    newest.toNat < record.timestampNs.toNat ∨
      record.timestampNs.toNat = newest.toNat ∧ newestSequence.toNat < record.sequence.toNat := by
  simp only [newer, Bool.or_eq_true, Bool.and_eq_true, decide_eq_true_eq, beq_iff_eq,
    UInt64.lt_iff_toNat_lt, ← UInt64.toNat_inj, gt_iff_lt]

theorem Record.not_newer_iff : record.newer newest newestSequence = false ↔
    record.timestampNs.toNat < newest.toNat ∨
      record.timestampNs.toNat = newest.toNat ∧
        record.sequence.toNat ≤ newestSequence.toNat := by
  rw [← Bool.not_eq_true, newer_iff]
  omega

end

namespace RecordSummary

variable {s : RecordSummary} {records : List Record} {record : Record}

theorem of_empty : empty.Of [] :=
  ⟨fun _ h => (by cases h), .inl ⟨rfl, rfl⟩, fun _ h => (by cases h), .inl rfl, rfl⟩

/-- A record behind the ones before. -/
theorem Of.noteNewest (h : s.Of records) (record : Record) :
    (∀ r ∈ records ++ [record], r.newer (s.noteNewest record).newest
      (s.noteNewest record).newestSequence = false) ∧
    (((s.noteNewest record).newest = 0 ∧ (s.noteNewest record).newestSequence = 0) ∨
      ∃ r ∈ records ++ [record], r.timestampNs = (s.noteNewest record).newest ∧
        r.sequence = (s.noteNewest record).newestSequence) := by
  unfold RecordSummary.noteNewest
  split
  · rename_i hnewer
    refine ⟨?_, .inr ⟨record, List.mem_append_right _ (List.mem_singleton_self _), rfl, rfl⟩⟩
    intro r hr
    rw [Record.newer_iff] at hnewer
    rw [Record.not_newer_iff]
    dsimp only
    rcases List.mem_append.1 hr with hr | hr
    · have hle := Record.not_newer_iff.1 (h.newest_le r hr)
      omega
    · rw [List.mem_singleton.1 hr]
      omega
  · rename_i hnewer
    rw [Bool.not_eq_true] at hnewer
    refine ⟨?_, ?_⟩
    · intro r hr
      rcases List.mem_append.1 hr with hr | hr
      · exact h.newest_le r hr
      · rw [List.mem_singleton.1 hr]
        exact hnewer
    · rcases h.newest_mem with hzero | ⟨r, hr, heq⟩
      · exact .inl hzero
      · exact .inr ⟨r, List.mem_append_left _ hr, heq⟩

theorem Of.noteOldest (h : s.Of records) (record : Record) :
    (∀ r ∈ records ++ [record], (s.noteOldest record).oldest ≤ r.timestampNs) ∧
    ((s.noteOldest record).oldest = empty.oldest ∨
      ∃ r ∈ records ++ [record], r.timestampNs = (s.noteOldest record).oldest) := by
  unfold RecordSummary.noteOldest
  split
  · rename_i hlt
    refine ⟨?_, .inr ⟨record, List.mem_append_right _ (List.mem_singleton_self _), rfl⟩⟩
    intro r hr
    rcases List.mem_append.1 hr with hr | hr
    · exact UInt64.le_of_lt (UInt64.lt_of_lt_of_le hlt (h.oldest_le r hr))
    · rw [List.mem_singleton.1 hr]
      exact UInt64.le_refl _
  · rename_i hle
    refine ⟨?_, ?_⟩
    · intro r hr
      rcases List.mem_append.1 hr with hr | hr
      · exact h.oldest_le r hr
      · rw [List.mem_singleton.1 hr]
        exact UInt64.not_lt.1 hle
    · rcases h.oldest_mem with hnone | ⟨r, hr, heq⟩
      · exact .inl hnone
      · exact .inr ⟨r, List.mem_append_left _ hr, heq⟩

/-- The parts of the loop body write different fields. -/
theorem note_eq (s : RecordSummary) (record : Record) :
    (s.note record).newest = (s.noteNewest record).newest ∧
    (s.note record).newestSequence = (s.noteNewest record).newestSequence ∧
    (s.note record).oldest = (s.noteOldest record).oldest ∧
    (s.note record).buttons =
      if record.has HFIOR_RECORD_BUTTON then s.buttons + 1 else s.buttons := by
  simp only [note, RecordSummary.noteNewest, RecordSummary.noteOldest, noteButton]
  split <;> split <;> split <;> exact ⟨rfl, rfl, rfl, rfl⟩

theorem Of.note (h : s.Of records) (record : Record) :
    (s.note record).Of (records ++ [record]) := by
  obtain ⟨hnewest, hsequence, holdest, hbuttons⟩ := note_eq s record
  obtain ⟨hnewest_le, hnewest_mem⟩ := h.noteNewest record
  obtain ⟨holdest_le, holdest_mem⟩ := h.noteOldest record
  rw [← hnewest, ← hsequence] at hnewest_le hnewest_mem
  rw [← holdest] at holdest_le holdest_mem
  refine ⟨hnewest_le, hnewest_mem, holdest_le, holdest_mem, ?_⟩
  rw [hbuttons, h.buttons, List.countP_append, List.countP_singleton]
  split
  · rw [UInt64.ofNat_add]
    rfl
  · rw [Nat.add_zero]

/-- `summarize_records` on the next records. -/
theorem Of.summarize (h : s.Of records) (batch : List Record) :
    (summarizeRecords batch s).Of (records ++ batch) := by
  induction batch generalizing s records with
  | nil => simpa [summarizeRecords] using h
  | cons record batch ih =>
    rw [List.append_cons]
    exact ih (h.note record)

/-- For records in the order of their timestamps and of their sequences, the
newest one is the last. -/
theorem Of.newest_last (h : s.Of records) {last : Record} (hlast : records.getLast? = some last)
    (hpositive : last.sequence ≠ 0)
    (hsorted : ∀ record ∈ records, record.timestampNs ≤ last.timestampNs ∧
      record.sequence ≤ last.sequence) :
    s.newest = last.timestampNs ∧ s.newestSequence = last.sequence := by
  have hle := Record.not_newer_iff.1 (h.newest_le last (List.mem_of_getLast? hlast))
  have hpositive : 0 < last.sequence.toNat :=
    Nat.pos_of_ne_zero fun h0 => hpositive (UInt64.toNat_inj.1 h0)
  rcases h.newest_mem with ⟨hnewest, hsequence⟩ | ⟨record, hrecord, hnewest, hsequence⟩
  · rw [hnewest, hsequence, UInt64.toNat_zero] at hle
    omega
  · obtain ⟨htime, hnumber⟩ := hsorted record hrecord
    rw [hnewest, UInt64.le_iff_toNat_le] at htime
    rw [hsequence, UInt64.le_iff_toNat_le] at hnumber
    exact ⟨UInt64.toNat_inj.1 (by omega), UInt64.toNat_inj.1 (by omega)⟩

end RecordSummary

/-! ## The observation -/

/-- `struct frame_observation`. -/
structure FrameObservation where
  frameIndex : UInt64
  targetStartNs : UInt64
  frameStartNs : UInt64
  startLatenessNs : UInt64
  legacyMeasurementNs : UInt64
  latchBeginNs : UInt64
  latchEndNs : UInt64
  useTimeNs : UInt64
  newestTimestampNs : UInt64
  newestSequence : UInt64
  oldestTimestampNs : UInt64
  actualAgeNs : UInt64
  legacyAgeNs : UInt64
  latchCostNs : UInt64
  postLatchToUseNs : UInt64
  headAtFrameStart : UInt64
  headAtInitialLatch : UInt64
  headAtFinalLatch : UInt64
  localTailAfter : UInt64
  records : UInt64
  lateRecords : UInt64
  checks : UInt64
  expensiveActions : UInt64
  ringDepthAfter : UInt64
deriving DecidableEq, Repr

/-- The initializer of `result` in `run_frame_policy`. -/
def FrameObservation.begin (frameIndex targetStartNs frameStartNs head : UInt64) :
    FrameObservation where
  frameIndex := frameIndex
  targetStartNs := targetStartNs
  frameStartNs := frameStartNs
  startLatenessNs := if frameStartNs > targetStartNs then frameStartNs - targetStartNs else 0
  legacyMeasurementNs := 0
  latchBeginNs := 0
  latchEndNs := 0
  useTimeNs := 0
  newestTimestampNs := 0
  newestSequence := 0
  oldestTimestampNs := RecordSummary.empty.oldest
  actualAgeNs := 0
  legacyAgeNs := 0
  latchCostNs := 0
  postLatchToUseNs := 0
  headAtFrameStart := head
  headAtInitialLatch := 0
  headAtFinalLatch := 0
  localTailAfter := 0
  records := 0
  lateRecords := 0
  checks := 0
  expensiveActions := 0
  ringDepthAfter := 0

/-- The classes of `tail-events.csv`. -/
inductive LateFrameClass where
  | consumerStartedLate | latchOrPreemption | postLatchWork | arrivalAfterLatch | unknown
deriving DecidableEq, Repr

def LateFrameClass.text : LateFrameClass → String
  | .consumerStartedLate => "consumer-started-late"
  | .latchOrPreemption => "latch-or-preemption"
  | .postLatchWork => "post-latch-work"
  | .arrivalAfterLatch => "arrival-after-latch"
  | .unknown => "unknown"

/-- The classification of `write_frame`. -/
def FrameObservation.classify (frame : FrameObservation) (tailThresholdNs : UInt64) :
    LateFrameClass :=
  if frame.startLatenessNs > tailThresholdNs / 2 then .consumerStartedLate
  else if frame.latchCostNs > tailThresholdNs / 2 then .latchOrPreemption
  else if frame.postLatchToUseNs > tailThresholdNs / 2 then .postLatchWork
  else if frame.headAtFinalLatch > frame.localTailAfter then .arrivalAfterLatch
  else .unknown

/-- The row that `write_frame` adds to `tail-events.csv`, if it adds one. -/
def FrameObservation.tailEvent (frame : FrameObservation) (tailThresholdNs : UInt64) :
    Option LateFrameClass :=
  if frame.actualAgeNs ≥ tailThresholdNs && frame.newestTimestampNs != 0 then
    some (frame.classify tailThresholdNs)
  else none

/-- Only a head above the local tail makes a tail event an arrival behind the
latch. -/
theorem FrameObservation.lt_of_arrival {frame : FrameObservation} {tailThresholdNs : UInt64}
    (h : frame.tailEvent tailThresholdNs = some .arrivalAfterLatch) :
    frame.localTailAfter < frame.headAtFinalLatch := by
  unfold tailEvent at h
  split at h
  · have h := Option.some.inj h
    unfold classify at h
    split at h
    · cases h
    split at h
    · cases h
    split at h
    · cases h
    split at h
    · assumption
    · cases h
  · cases h

end Hfior
