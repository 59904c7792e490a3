import Hfior.Input.PublicationTrace
import Hfior.Library.Bisect

/-!
# The analysis of the publication trace

`load_trace` and `enrich_trace` of `benchmarks/analysis/analyze.py` join the
frames of a client with the publication trace of the bridge.  For each frame
they look for the latest record that the ring had committed at the use time,
and they call the frame a miss if it is newer than the newest record that the
frame has used.

`missed_committed_exact` says that they find it: with a clock that does not
run backwards, a frame is a miss if and only if an accepted record with a
greater number was published by the use time.
-/

namespace Hfior

open Bisect

/-! ## The loaded trace -/

/-- What `load_trace` returns: the published rows by their end, the published
rows by their number, and the ends. -/
structure LoadedTrace where
  rows : List PublicationTraceEntry
  bySequence : Int → Option PublicationTraceEntry
  ends : List Int

def PublicationTraceEntry.endNs (row : PublicationTraceEntry) : Int := row.publishEndNs.toNat

def PublicationTraceEntry.number (row : PublicationTraceEntry) : Int := row.sequence.toNat

/-- `load_trace`.  A number that is there twice belongs to the last of its
rows. -/
def loadTrace (trace : List PublicationTraceEntry) : LoadedTrace :=
  let rows := (publishedRows trace).mergeSort fun a b => decide (a.endNs ≤ b.endNs)
  { rows := rows
    bySequence := fun n => (publishedRows trace).reverse.find? (·.number == n)
    ends := rows.map (·.endNs) }

/-! ## The frames -/

/-- The columns of a frame that `enrich_trace` reads. -/
structure FrameRow where
  useTimeNs : Int
  newestSequence : Int
  actualAgeNs : Int
  latchEndNs : Int
  startLatenessNs : Int
  latchCostNs : Int
  postLatchToUseNs : Int

/-- Why a sample is old. -/
inductive TailClass where
  | notTail
  | sourcePublicationDelay
  | consumerStartedLate
  | missedCommitted
  | latchPreemption
  | postLatchWork
  | arrivalAfterLatch
  | unclassified
deriving DecidableEq, Repr

structure EnrichedFrame where
  latestCommittedSequence : Int
  missedCommitted : Bool
  sourcePublicationDelayNs : Int
  latestCommittedAgeNs : Int
  arrivalAfterLatch : Bool
  tailClassification : TailClass

/-- The latest row that ends by the use time. -/
def LoadedTrace.committed (t : LoadedTrace) (useTimeNs : Int) : Option PublicationTraceEntry :=
  let behind := bisectRight t.ends useTimeNs
  if behind = 0 then none else t.rows[behind - 1]?

/-- The chain of tests at the end of `enrich_trace`. -/
def tailClass (fr : FrameRow) (thresholdNs sourceDelayNs : Int) (missed arrival : Bool) :
    TailClass :=
  if fr.actualAgeNs ≥ thresholdNs then
    if sourceDelayNs ≥ thresholdNs / 2 then .sourcePublicationDelay
    else if fr.startLatenessNs ≥ thresholdNs / 2 then .consumerStartedLate
    else if missed then .missedCommitted
    else if fr.latchCostNs ≥ thresholdNs / 2 then .latchPreemption
    else if fr.postLatchToUseNs ≥ thresholdNs / 2 then .postLatchWork
    else if arrival then .arrivalAfterLatch
    else .unclassified
  else .notTail

/-- The body of the loop of `enrich_trace`. -/
def enrichFrame (t : LoadedTrace) (thresholdNs : Int) (fr : FrameRow) : EnrichedFrame :=
  let committed := t.committed fr.useTimeNs
  let consumed := t.bySequence fr.newestSequence
  let committedSequence := committed.elim 0 (·.number)
  let committedTimestampNs : Int := committed.elim 0 (·.sourceTimestampNs.toNat)
  let missed := committed.isSome && committedSequence > fr.newestSequence
  let sourceDelayNs := consumed.elim 0 fun row => row.endNs - row.sourceTimestampNs.toNat
  let arrival := committed.any (·.endNs > fr.latchEndNs)
  { latestCommittedSequence := committedSequence
    missedCommitted := missed
    sourcePublicationDelayNs := sourceDelayNs
    latestCommittedAgeNs :=
      if committed.isSome && fr.useTimeNs ≥ committedTimestampNs then
        fr.useTimeNs - committedTimestampNs
      else 0
    arrivalAfterLatch := arrival
    tailClassification := tailClass fr thresholdNs sourceDelayNs missed arrival }

/-! ## A trace under one clock -/

/-- The ends of the publications, under a clock that does not run
backwards. -/
def EndsInOrder (trace : List PublicationTraceEntry) : Prop :=
  trace.Pairwise fun a b => a.publishEndNs ≤ b.publishEndNs

instance (trace : List PublicationTraceEntry) : Decidable (EndsInOrder trace) :=
  inferInstanceAs (Decidable (trace.Pairwise _))

section
variable {trace : List PublicationTraceEntry}

theorem publishedRows_inOrder (hclock : EndsInOrder trace) :
    (publishedRows trace).Pairwise fun a b => a.endNs ≤ b.endNs := by
  refine (List.Pairwise.filter _ hclock).imp ?_
  intro a b h
  exact Int.ofNat_le.2 (UInt64.le_iff_toNat_le.1 h)

/-- The rows are in order already. -/
theorem loadTrace_rows (hclock : EndsInOrder trace) :
    (loadTrace trace).rows = publishedRows trace :=
  List.mergeSort_of_pairwise ((publishedRows_inOrder hclock).imp decide_eq_true)

theorem loadTrace_ends (hclock : EndsInOrder trace) :
    (loadTrace trace).ends = (publishedRows trace).map (·.endNs) := by
  rw [← loadTrace_rows hclock]
  rfl

theorem ends_sorted (hclock : EndsInOrder trace) :
    (loadTrace trace).ends.Pairwise (· ≤ ·) := by
  rw [loadTrace_ends hclock, List.pairwise_map]
  exact publishedRows_inOrder hclock

/-- The rows up to the latest committed one, and no others, end by the use
time. -/
theorem committed_cases (hclock : EndsInOrder trace) (useTimeNs : Int) :
    ∃ n ≤ (publishedRows trace).length,
      (∀ i row, (publishedRows trace)[i]? = some row → (i < n ↔ row.endNs ≤ useTimeNs)) ∧
      (loadTrace trace).committed useTimeNs =
        if n = 0 then none else (publishedRows trace)[n - 1]? := by
  obtain ⟨hle, hbelow, habove⟩ := bisectRight_spec (ends_sorted hclock) (x := useTimeNs)
  rw [loadTrace_ends hclock] at hle hbelow habove
  rw [List.length_map] at hle
  refine ⟨_, hle, ?_, ?_⟩
  · intro i row hrow
    obtain ⟨hi, rfl⟩ := List.getElem?_eq_some_iff.1 hrow
    have hi' : i < ((publishedRows trace).map (·.endNs)).length := by
      rwa [List.length_map]
    constructor
    · intro hlt
      simpa using hbelow i hi' hlt
    · intro hend
      by_contra hge
      have hlt := habove i hi' (Nat.le_of_not_lt hge)
      rw [List.getElem_map] at hlt
      omega
  · rw [LoadedTrace.committed, loadTrace_rows hclock, loadTrace_ends hclock]

end

/-! ## What the analysis finds -/

/-- The record at this position, which the ring had committed by the use
time. -/
structure IsCommittedBy (p : Program) (useTimeNs : Int) (position : Nat) (record : Record) :
    Prop where
  accepted : (acceptedRecords p.attempts)[position]? = some record
  committed : ∃ row ∈ p.bridge.publicationTrace,
    IsRowAt row record position ∧ row.published = 1 ∧ row.endNs ≤ useTimeNs

section
variable {size features nowNs : UInt64} {device : DeviceIdentity} {o : AdmittedOptions}
  {ops : DoubleOps} {ring : RingHeader} {clientFd inputFd : Int32} {steps : List ProgramStep}
  {p : Program} (hinit : initializeMapping size o.capacity features device 1 nowNs = .ok ring)
  (htrace : o.config.tracePath = true)
  (hrun : (programMachine o ops).run (.boot o ring clientFd inputFd) steps = some p)
  (hlt : p.attempts.length + 1 < 2 ^ 64) (hclock : EndsInOrder p.bridge.publicationTrace)
include hinit htrace hrun hlt

/-- The published row at a position is the row of the record there. -/
theorem isCommittedBy_iff (useTimeNs : Int) {position : Nat} {record : Record}
    (haccepted : (acceptedRecords p.attempts)[position]? = some record) :
    ∃ row, (publishedRows p.bridge.publicationTrace)[position]? = some row ∧
      IsRowAt row record position ∧
      (IsCommittedBy p useTimeNs position record ↔ row.endNs ≤ useTimeNs) := by
  obtain ⟨hlength, hpublished⟩ :=
    ((traced_program hinit hrun hlt).rows htrace).published
  have hposition := (List.getElem?_eq_some_iff.1 haccepted).1
  rw [← hlength] at hposition
  have hrow := List.getElem?_eq_getElem hposition
  generalize (publishedRows p.bridge.publicationTrace)[position] = row at hrow
  have hat := hpublished position row record hrow haccepted
  refine ⟨row, hrow, hat, ?_⟩
  obtain ⟨row', hmem', hat', hone', hunique⟩ :=
    (trace_exact hinit htrace hrun hlt).2.2 position record haccepted
  have hmem := List.mem_of_getElem? hrow
  rw [publishedRows, List.mem_filter] at hmem
  have hsame : row = row' := hunique row hmem.1 hat.sequence
  constructor
  · rintro ⟨-, row'', hmem'', hat'', -, hend⟩
    rw [hsame, ← hunique row'' hmem'' hat''.sequence]
    exact hend
  · intro hend
    exact ⟨haccepted, row', hmem', hat', hone', hsame ▸ hend⟩

include hclock

/-- The latest committed record: none, or the record at a position such that
exactly the records up to it were committed by the use time. -/
theorem committed_spec (useTimeNs : Int) :
    ((loadTrace p.bridge.publicationTrace).committed useTimeNs = none ∧
      ∀ position record, ¬ IsCommittedBy p useTimeNs position record) ∨
    ∃ last record row, (loadTrace p.bridge.publicationTrace).committed useTimeNs = some row ∧
      (acceptedRecords p.attempts)[last]? = some record ∧ IsRowAt row record last ∧
      ∀ position record, (acceptedRecords p.attempts)[position]? = some record →
        (IsCommittedBy p useTimeNs position record ↔ position ≤ last) := by
  obtain ⟨n, hn, hbehind, hcommitted⟩ := committed_cases hclock useTimeNs
  obtain ⟨hlength, hpublished⟩ :=
    ((traced_program hinit hrun hlt).rows htrace).published
  have hiff : ∀ position record, (acceptedRecords p.attempts)[position]? = some record →
      (IsCommittedBy p useTimeNs position record ↔ position < n) := by
    intro position record haccepted
    obtain ⟨row, hrow, -, hcommittedBy⟩ :=
      isCommittedBy_iff hinit htrace hrun hlt useTimeNs haccepted
    rw [hcommittedBy, hbehind position row hrow]
  rcases Nat.eq_zero_or_pos n with rfl | hpos
  · refine .inl ⟨hcommitted, ?_⟩
    intro position record h
    exact absurd ((hiff position record h.accepted).1 h) (Nat.not_lt_zero position)
  · rw [if_neg (Nat.ne_of_gt hpos)] at hcommitted
    have hrow := List.getElem?_eq_getElem (show n - 1 < _ by omega :
      n - 1 < (publishedRows p.bridge.publicationTrace).length)
    have haccepted := List.getElem?_eq_getElem (show n - 1 < _ by omega :
      n - 1 < (acceptedRecords p.attempts).length)
    refine .inr ⟨n - 1, _, _, hcommitted.trans hrow, haccepted,
      hpublished _ _ _ hrow haccepted, ?_⟩
    intro position record hrecord
    rw [hiff position record hrecord]
    omega

/-- For every frame of a client, behind every run of the program with a trace,
fewer than 2^64 - 1 attempts and a clock that does not run backwards: the frame is
a miss if and only if the ring had committed, by the use time of the frame, a
record with a greater number than the newest one of the frame.  The latest
committed number is the greatest one of the committed records, and a tail is
put down to a miss only if there is one. -/
theorem missed_committed_exact (thresholdNs : Int) (fr : FrameRow) :
    let e := enrichFrame (loadTrace p.bridge.publicationTrace) thresholdNs fr
    (e.missedCommitted = true ↔ ∃ position record,
      IsCommittedBy p fr.useTimeNs position record ∧
        fr.newestSequence < record.sequence.toNat) ∧
    (∀ position record, IsCommittedBy p fr.useTimeNs position record →
      record.sequence.toNat ≤ e.latestCommittedSequence) ∧
    (e.latestCommittedSequence = 0 ∨ ∃ position record,
      IsCommittedBy p fr.useTimeNs position record ∧
        record.sequence.toNat = e.latestCommittedSequence) ∧
    (e.tailClassification = .missedCommitted → ∃ position record,
      IsCommittedBy p fr.useTimeNs position record ∧
        fr.newestSequence < record.sequence.toNat) := by
  intro e
  have hincreasing := (traced_program hinit hrun hlt).numbered.accepted_increasing
  -- The last test of a chain that ends in a miss is the one for a miss.
  have hclass : e.tailClassification = .missedCommitted → e.missedCommitted = true := by
    intro htail
    have htests : tailClass fr thresholdNs e.sourcePublicationDelayNs e.missedCommitted
        e.arrivalAfterLatch = .missedCommitted := htail
    unfold tailClass at htests
    grind
  rcases committed_spec hinit htrace hrun hlt hclock fr.useTimeNs with
    ⟨hnone, hempty⟩ | ⟨last, record, row, hsome, haccepted, hat, hiff⟩
  · have hmissed : e.missedCommitted = false := by
      simp only [e, enrichFrame, hnone, Option.isSome_none, Bool.false_and]
    have hlatest : e.latestCommittedSequence = 0 := by
      simp only [e, enrichFrame, hnone, Option.elim_none]
    refine ⟨⟨fun h => ?_, fun ⟨position, record, h, _⟩ => absurd h (hempty position record)⟩,
      fun position record h => absurd h (hempty position record), .inl hlatest, fun h => ?_⟩
    · rw [hmissed] at h
      cases h
    · have hclass := hclass h
      rw [hmissed] at hclass
      cases hclass
  · have hlatest : e.latestCommittedSequence = record.sequence.toNat := by
      simp only [e, enrichFrame, hsome, Option.elim_some, PublicationTraceEntry.number,
        hat.sequence]
    have hmissed : e.missedCommitted = true ↔ fr.newestSequence < record.sequence.toNat := by
      rw [← hlatest]
      simp only [e, enrichFrame, hsome, Option.isSome_some, Bool.true_and, gt_iff_lt,
        decide_eq_true_eq]
    have hlast : IsCommittedBy p fr.useTimeNs last record := (hiff last record haccepted).2 le_rfl
    have hgreatest : ∀ position record', IsCommittedBy p fr.useTimeNs position record' →
        record'.sequence.toNat ≤ record.sequence.toNat := by
      intro position record' h
      have hle := (hiff position record' h.accepted).1 h
      rcases Nat.eq_or_lt_of_le hle with rfl | hlt'
      · rw [Option.some.inj (h.accepted.symm.trans haccepted)]
      · obtain ⟨hi, rfl⟩ := List.getElem?_eq_some_iff.1 h.accepted
        obtain ⟨hj, rfl⟩ := List.getElem?_eq_some_iff.1 haccepted
        exact Nat.le_of_lt (List.pairwise_iff_getElem.1 hincreasing _ _ hi hj hlt')
    refine ⟨⟨fun h => ⟨last, record, hlast, hmissed.1 h⟩, ?_⟩, ?_,
      .inr ⟨last, record, hlast, hlatest.symm⟩,
      fun h => ⟨last, record, hlast, hmissed.1 (hclass h)⟩⟩
    · rintro ⟨position, record', h, hnewer⟩
      have hle := hgreatest position record' h
      exact hmissed.2 (by omega)
    · intro position record' h
      have hle := hgreatest position record' h
      omega

end

/-- A frame that has used nothing, behind the first record. -/
def earlyFrame : FrameRow := ⟨5, 0, 0, 0, 0, 0, 0⟩

theorem missed_committed_exact_device :
    ∃ p, (programMachine tracedOptions .exact).run
        (.boot tracedOptions (freshBridge 64).ring 5 6) deviceSteps = some p ∧
      EndsInOrder p.bridge.publicationTrace ∧
      ((enrichFrame (loadTrace p.bridge.publicationTrace) 500000
          earlyFrame).missedCommitted = true ↔
        ∃ position record, IsCommittedBy p 5 position record ∧
          (0 : Int) < record.sequence.toNat) ∧
      (enrichFrame (loadTrace p.bridge.publicationTrace) 500000 earlyFrame).missedCommitted =
        true := by
  have hinit : initializeMapping (mappingSize 64) tracedOptions.capacity 0 ⟨[], 0, 0, 0, 0⟩ 1 0 =
      .ok (freshBridge 64).ring := rfl
  have hrun : (programMachine tracedOptions .exact).run
      (.boot tracedOptions (freshBridge 64).ring 5 6) deviceSteps = some _ := rfl
  have hmissed := (missed_committed_exact hinit rfl hrun (by decide) (by decide) 500000
    earlyFrame).1
  refine ⟨_, hrun, by decide, hmissed, hmissed.2 ⟨0, _, ⟨rfl, _, List.mem_cons_self, ?_⟩, ?_⟩⟩
  · exact ⟨⟨rfl, rfl, rfl⟩, rfl, by decide⟩
  · decide

end Hfior
