import Hfior.RingClient.RowSteps

/-!
# The rows of frames.csv

The rows of the frames are a division of the records that the client has
accounted: `RowOf` says what one row says about its part, and `RowsOf` puts
the parts one behind the other.  A row has all records that were committed
when its frame started (for the late latch, all that were committed at the
first latch), and its newest record is the newest of its part.

`Gathered`, `Positions` and `Counted` are the three sides of the invariant in
the middle of a frame, and `RowInv` is the invariant of the machine.
-/

namespace Hfior

/-! ## What the rows say -/

/-- The expensive actions of a frame: one for each of its takes that found a
record, where only the two stages count the second one. -/
def actionsOf (policy : ClientPolicy) (total late : UInt64) : UInt64 :=
  (if total = 0 then 0 else 1) + (if policy = .hfiorTwoStage ∧ late ≠ 0 then 1 else 0)

/-- A row whose records are the accepted ones from `first` on. -/
structure RowOf (policy : ClientPolicy) (accepted : List Record) (first : Nat)
    (row : FrameObservation) : Prop where
  late : row.lateRecords ≤ row.records
  summary : ∃ summary : RecordSummary,
    summary.Of (slice accepted first (first + row.records.toNat)) ∧
    row.newestTimestampNs = summary.newest ∧ row.newestSequence = summary.newestSequence ∧
    row.oldestTimestampNs =
      if summary.oldest = RecordSummary.empty.oldest then 0 else summary.oldest
  /-- No record that was there at the start waits for the next frame. -/
  frameStart : row.headAtFrameStart.toNat ≤ first + row.records.toNat
  initialLatch : policy = .hfiorLateLatch → row.headAtFrameStart ≠ 0 →
    row.headAtInitialLatch.toNat ≤ first + row.records.toNat
  localTail : first + row.records.toNat ≤ row.localTailAfter.toNat
  tail_le : row.localTailAfter.toNat ≤ accepted.length
  finalLatch : row.headAtFinalLatch.toNat ≤ accepted.length
  actions : row.expensiveActions =
    actionsOf policy (row.records - row.lateRecords) row.lateRecords

/-- The rows divide the accepted records from `first` on. -/
def RowsOf (policy : ClientPolicy) (accepted : List Record) : Nat → List FrameObservation → Prop
  | _, [] => True
  | first, row :: rows =>
    RowOf policy accepted first row ∧ RowsOf policy accepted (first + row.records.toNat) rows

/-- The position behind the records of the rows. -/
def behindRows (first : Nat) (rows : List FrameObservation) : Nat :=
  first + (rows.map fun row => row.records.toNat).sum

section
variable {policy : ClientPolicy} {accepted accepted' : List Record} {first : Nat}
  {row : FrameObservation} {rows : List FrameObservation}

theorem RowOf.mono (h : RowOf policy accepted first row) (hgrow : accepted <+: accepted') :
    RowOf policy accepted' first row := by
  have hwithin := h.localTail.trans h.tail_le
  refine ⟨h.late, ?_, h.frameStart, h.initialLatch, h.localTail,
    h.tail_le.trans hgrow.length_le, h.finalLatch.trans hgrow.length_le, h.actions⟩
  obtain ⟨summary, hsummary, hfields⟩ := h.summary
  refine ⟨summary, ?_, hfields⟩
  have hsame : slice accepted' first _ = _ := slice_of_prefix hgrow hwithin
  rw [hsame]
  exact hsummary

theorem RowsOf.mono (h : RowsOf policy accepted first rows) (hgrow : accepted <+: accepted') :
    RowsOf policy accepted' first rows := by
  induction rows generalizing first with
  | nil => trivial
  | cons row rows ih => exact ⟨h.1.mono hgrow, ih h.2⟩

theorem behindRows_concat : behindRows first (rows ++ [row]) =
    behindRows first rows + row.records.toNat := by
  simp [behindRows, Nat.add_assoc]

/-- The next row behind the rows so far. -/
theorem RowsOf.concat (h : RowsOf policy accepted first rows)
    (hrow : RowOf policy accepted (behindRows first rows) row) :
    RowsOf policy accepted first (rows ++ [row]) := by
  induction rows generalizing first with
  | nil => exact ⟨hrow, trivial⟩
  | cons x rows ih =>
    refine ⟨h.1, ih h.2 ?_⟩
    have hsame : behindRows (first + x.records.toNat) rows = behindRows first (x :: rows) := by
      simp [behindRows, Nat.add_assoc]
    rw [hsame]
    exact hrow

theorem RowsOf.of_prefix (h : RowsOf policy accepted first rows)
    {rows' : List FrameObservation} (hpart : rows' <+: rows) :
    RowsOf policy accepted first rows' := by
  induction rows' generalizing first rows with
  | nil => trivial
  | cons row rows' ih =>
    obtain ⟨rest, rfl⟩ := hpart
    exact ⟨h.1, ih h.2 ⟨rest, rfl⟩⟩

/-- A row that `write_frame` calls an arrival behind the latch leaves an
accepted record to the next frames. -/
theorem RowOf.arrival (h : RowOf policy accepted first row) {tailThresholdNs : UInt64}
    (harrival : row.tailEvent tailThresholdNs = some .arrivalAfterLatch) :
    first + row.records.toNat < accepted.length := by
  have hlt := UInt64.lt_iff_toNat_lt.1 (FrameObservation.lt_of_arrival harrival)
  have hlocal := h.localTail
  have hfinal := h.finalLatch
  omega

end

/-! ## The invariant in the middle of a frame -/

open RingSystem

/-- What a frame does about the records up to a committed position. -/
structure ReadsUpTo (position : Nat) (s : RowSystem) : Prop where
  committed : position ≤ s.ring.accepted.length
  drained : s.todo.any RowOp.isDrain = false → DrainedPast position s.ring
  taken : s.todo.any RowOp.isTake = false → position ≤ s.ring.start + s.ring.takenCount

/-- What a frame has taken. -/
structure Gathered (s : RowSystem) (l : FrameLocals) : Prop where
  consumed : behindRows s.ring.start s.observations + l.totalRecords.toNat +
    l.lateRecords.toNat = s.ring.start + s.ring.takenCount
  summary : l.summary.Of (slice s.ring.accepted (behindRows s.ring.start s.observations)
    (s.ring.start + s.ring.takenCount))

/-- What a frame knows of the positions. -/
structure Positions (s : RowSystem) (l : FrameLocals) : Prop where
  frameStart : ReadsUpTo l.result.headAtFrameStart.toNat s
  initialLatch : s.policy = .hfiorLateLatch → .own .loadInitialHead ∉ s.todo →
    l.result.headAtFrameStart ≠ 0 →
    l.result.headAtInitialLatch ≠ 0 ∧ ReadsUpTo l.result.headAtInitialLatch.toNat s
  localTail : .own .readLocalTail ∉ s.todo →
    s.ring.start + s.ring.takenCount ≤ l.result.localTailAfter.toNat
  tail_le : l.result.localTailAfter.toNat ≤ s.ring.accepted.length
  initialLatch_le : l.result.headAtInitialLatch.toNat ≤ s.ring.accepted.length
  finalLatch_le : l.result.headAtFinalLatch.toNat ≤ s.ring.accepted.length

/-- The actions that a frame has counted. -/
def Counted (s : RowSystem) (l : FrameLocals) : Prop :=
  s.stats.expensiveActions = l.actionsBefore +
    ((if .own .act ∈ s.todo ∨ l.totalRecords = 0 then 0 else 1) +
      (if s.policy = .hfiorTwoStage ∧ .own .actSecond ∉ s.todo ∧ l.lateRecords ≠ 0 then 1
        else 0))

/-- A written frame is one whose row is in the file. -/
def Unwritten (s : RowSystem) : Prop := .own .writeFrame ∈ s.todo ∧ .own .observe ∉ s.todo

structure RowInv (config : FrameConfig) (s : RowSystem) : Prop where
  ring : RingInv s.ring
  unshadowed : Unshadowed s
  suffix : s.todo <:+ rowProgram config s.policy
  observing : s.locals.isSome = true ↔ .own .observe ∈ s.todo
  between : s.locals = none →
    behindRows s.ring.start s.observations = s.ring.start + s.ring.takenCount
  gathered : ∀ l, s.locals = some l → Gathered s l
  positions : ∀ l, s.locals = some l → Positions s l
  counted : ∀ l, s.locals = some l → Counted s l
  observed : RowsOf s.policy s.ring.accepted s.ring.start s.observations
  unwritten : Unwritten s → s.rows ++ s.observations.getLast?.toList = s.observations
  written : ¬ Unwritten s → s.rows = s.observations

/-! ## The records of a frame -/

section
variable {s : RingSystem}

/-- A list in front of a slice is a slice. -/
theorem eq_slice_of_append {l a b : List Record} {i j : Nat} (hij : i ≤ j) (hj : j ≤ l.length)
    (h : a ++ b = slice l i j) : a = slice l i (i + a.length) := by
  have hlength := congrArg List.length h
  rw [slice_length hj, List.length_append] at hlength
  have htake : a = (slice l i j).take a.length := by
    rw [← h, List.take_left]
  conv_lhs => rw [htake]
  rw [slice, slice, List.take_drop, List.take_take, Nat.min_eq_left (by omega)]

theorem RingInv.pushedCount_le (h : RingInv s) :
    s.start + s.pushedCount ≤ s.client.localTail.toNat := by
  have hlength := congrArg List.length h.client.pushed
  rw [slice_length h.client.local_le, List.length_append, List.length_append] at hlength
  have hstart := h.client.start_le
  have hpushed : s.pushedCount = s.taken.flatten.length + s.client.pending.records.length := rfl
  omega

theorem RingInv.takenCount_le (h : RingInv s) :
    s.start + s.takenCount ≤ s.client.localTail.toNat := by
  have hle := h.pushedCount_le
  have hpushed : s.pushedCount = s.takenCount + s.client.pending.records.length := rfl
  omega

/-- What is in the queue comes behind what is taken. -/
theorem RingInv.pending_eq (h : RingInv s) : s.client.pending.records =
    slice s.accepted (s.start + s.takenCount) (s.start + s.pushedCount) := by
  have hpushed := h.client.pushed
  have hlocal := h.client.local_le
  have hall := eq_slice_of_append h.client.start_le hlocal hpushed
  rw [List.append_assoc] at hpushed
  have htaken := eq_slice_of_append h.client.start_le hlocal hpushed
  rw [List.length_append] at hall
  have hle := h.pushedCount_le
  have hcount : s.pushedCount = s.takenCount + s.client.pending.records.length := rfl
  have hsplit := slice_append_slice (l := s.accepted) (i := s.start)
    (j := s.start + s.takenCount) (k := s.start + s.pushedCount) (by omega) (by omega)
  have htaken : s.taken.flatten = slice s.accepted s.start (s.start + s.takenCount) := htaken
  have hall : s.taken.flatten ++ s.client.pending.records =
    slice s.accepted s.start (s.start + s.pushedCount) := hall
  rw [← hsplit, ← htaken] at hall
  exact List.append_cancel_left hall

end

/-! ## Steps on the shared data -/

section
variable {config : FrameConfig} {s t : RowSystem} {l l' : FrameLocals}

/-- What a step does to the ring client. -/
structure RingMoves (s t : RowSystem) : Prop where
  policy : t.policy = s.policy
  start : t.ring.start = s.ring.start
  grow : s.ring.accepted <+: t.ring.accepted
  drained : ∀ position, position ≤ s.ring.accepted.length →
    DrainedPast position s.ring → DrainedPast position t.ring

theorem ringMoves_of (hinv : RingInv s.ring) {label : RingLabel}
    (hring : RingStep s.ring label t.ring) : RingMoves s t :=
  ⟨hring.policy_eq, hring.start_eq, hring.accepted_extend,
    fun _ hle h => hring.drainedPast hinv hle h⟩

theorem ringMoves_refl (hring : t.ring = s.ring) : RingMoves s t := by
  refine ⟨?_, ?_, ?_, ?_⟩ <;> simp only [RowSystem.policy, hring, List.prefix_refl]
  exact fun _ _ h => h

/-- A step that takes nothing, and behind which no less is to be taken, and no
less is to be drained than begins to be drained in it. -/
theorem ReadsUpTo.move {position : Nat} (h : ReadsUpTo position s) (hmoves : RingMoves s t)
    (htaken : t.ring.taken = s.ring.taken)
    (hdrain : t.todo.any RowOp.isDrain = false →
      s.todo.any RowOp.isDrain = false ∨ DrainedPast position t.ring)
    (htake : t.todo.any RowOp.isTake = false → s.todo.any RowOp.isTake = false) :
    ReadsUpTo position t := by
  refine ⟨h.committed.trans hmoves.grow.length_le, fun hnone => ?_, fun hnone => ?_⟩
  · rcases hdrain hnone with hdrain | hdrained
    · exact hmoves.drained _ h.committed (h.drained hdrain)
    · exact hdrained
  · rw [hmoves.start, takenCount, htaken]
    exact h.taken (htake hnone)

theorem Gathered.move (h : Gathered s l) (hmoves : RingMoves s t) (hinv : RingInv s.ring)
    (htaken : t.ring.taken = s.ring.taken) (hobservations : t.observations = s.observations)
    (htotal : l'.totalRecords = l.totalRecords) (hlate : l'.lateRecords = l.lateRecords)
    (hsummary : l'.summary = l.summary) : Gathered t l' := by
  have htakenCount : t.ring.takenCount = s.ring.takenCount := by
    rw [takenCount, takenCount, htaken]
  refine ⟨?_, ?_⟩
  · rw [hobservations, hmoves.start, htotal, hlate, htakenCount]
    exact h.consumed
  · rw [hobservations, hmoves.start, hsummary, htakenCount,
      slice_of_prefix hmoves.grow (hinv.takenCount_le.trans hinv.client.local_le)]
    exact h.summary

theorem Positions.move (h : Positions s l) (hmoves : RingMoves s t)
    (htaken : t.ring.taken = s.ring.taken)
    (hdrain : t.todo.any RowOp.isDrain = false →
      s.todo.any RowOp.isDrain = false ∨ ∀ position, DrainedPast position t.ring)
    (htake : t.todo.any RowOp.isTake = false → s.todo.any RowOp.isTake = false)
    (hhead : .own .loadInitialHead ∉ t.todo → .own .loadInitialHead ∉ s.todo)
    (htail : .own .readLocalTail ∉ t.todo → .own .readLocalTail ∉ s.todo)
    (hstart : l'.result.headAtFrameStart = l.result.headAtFrameStart)
    (hinitial : l'.result.headAtInitialLatch = l.result.headAtInitialLatch)
    (hfinal : l'.result.headAtFinalLatch = l.result.headAtFinalLatch)
    (hlocal : l'.result.localTailAfter = l.result.localTailAfter) : Positions t l' := by
  have hreads : ∀ position, ReadsUpTo position s → ReadsUpTo position t :=
    fun position hreads => hreads.move hmoves htaken
      (fun hnone => (hdrain hnone).imp id fun hdrained => hdrained position) htake
  have hgrow := hmoves.grow.length_le
  constructor
  · rw [hstart]
    exact hreads _ h.frameStart
  · rw [hmoves.policy, hstart, hinitial]
    intro hpolicy hmem hne
    obtain ⟨hne', hreads'⟩ := h.initialLatch hpolicy (hhead hmem) hne
    exact ⟨hne', hreads _ hreads'⟩
  · rw [hmoves.start, takenCount, htaken, hlocal]
    exact fun hmem => h.localTail (htail hmem)
  · rw [hlocal]
    exact h.tail_le.trans hgrow
  · rw [hinitial]
    exact h.initialLatch_le.trans hgrow
  · rw [hfinal]
    exact h.finalLatch_le.trans hgrow

theorem Counted.move (h : Counted s l) (hpolicy : t.policy = s.policy)
    (hactions : t.stats.expensiveActions = s.stats.expensiveActions)
    (hact : .own .act ∈ t.todo ↔ .own .act ∈ s.todo)
    (hsecond : .own .actSecond ∈ t.todo ↔ .own .actSecond ∈ s.todo)
    (htotal : l'.totalRecords = l.totalRecords) (hlate : l'.lateRecords = l.lateRecords)
    (hbefore : l'.actionsBefore = l.actionsBefore) : Counted t l' := by
  unfold Counted
  simp only [hpolicy, hactions, hact, hsecond, htotal, hlate, hbefore]
  exact h

/-- Behind its observation a frame has no variables. -/
theorem RowInv.locals_eq_none (h : RowInv config s) (hnot : .own .observe ∉ s.todo) :
    s.locals = none := by
  rw [← Option.isNone_iff_eq_none, ← Option.not_isSome, Bool.not_eq_true', ← Bool.not_eq_true]
  exact fun hsome => hnot (h.observing.1 hsome)

/-- A step that neither observes nor writes. -/
theorem RowInv.quiet (h : RowInv config s) (hring : RingInv t.ring) (hun : Unshadowed t)
    (hmoves : RingMoves s t) (htaken : t.ring.taken = s.ring.taken ∨ s.locals.isSome = true)
    (hobservations : t.observations = s.observations) (hrows : t.rows = s.rows)
    (hsuffix : t.todo <:+ s.todo)
    (hobserve : .own .observe ∈ t.todo ↔ .own .observe ∈ s.todo)
    (hwrite : .own .writeFrame ∈ t.todo ↔ .own .writeFrame ∈ s.todo)
    (hlocals : t.locals.isSome = s.locals.isSome)
    (hgathered : ∀ l, t.locals = some l → Gathered t l)
    (hpositions : ∀ l, t.locals = some l → Positions t l)
    (hcounted : ∀ l, t.locals = some l → Counted t l) : RowInv config t := by
  have hunwritten : Unwritten t ↔ Unwritten s := by
    rw [Unwritten, Unwritten, hobserve, hwrite]
  refine ⟨hring, hun, ?_, ?_, ?_, hgathered, hpositions, hcounted, ?_, ?_, ?_⟩
  · rw [hmoves.policy]
    exact hsuffix.trans h.suffix
  · rw [hlocals, hobserve]
    exact h.observing
  · intro hnone
    have hnone' : s.locals = none := by
      rw [← Option.isNone_iff_eq_none, ← Option.not_isSome, ← hlocals, hnone]
      rfl
    have htaken : t.ring.taken = s.ring.taken := by
      refine htaken.resolve_right ?_
      rw [hnone']
      exact Bool.false_ne_true
    rw [hobservations, hmoves.start, takenCount, htaken]
    exact h.between hnone'
  · rw [hobservations, hmoves.policy, hmoves.start]
    exact h.observed.mono hmoves.grow
  · rw [hunwritten, hrows, hobservations]
    exact h.unwritten
  · rw [hunwritten, hrows, hobservations]
    exact h.written

end

end Hfior
