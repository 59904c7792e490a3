import Hfior.Library.Increasing
import Hfior.RingClient.Invariant

/-!
# The two ledgers agree on the losses

The bridge counts a sequence for every attempt, and the client counts the
gaps between the sequences that it receives.  The received records are
consecutive accepted records, so every missing sequence between the first
and the last of them is a dropped attempt, and it is missed once.

Among the attempts up to an accepted record at position `p`, `p + 1` were
accepted (`Numbered.dropped_upTo`).  The rest of the file takes differences
of this.
-/

namespace Hfior

/-- The dropped attempts with a sequence strictly between the two. -/
def droppedBetween (attempts : List Attempt) (first last : UInt64) : Nat :=
  attempts.countP fun a =>
    !a.published && (first < a.record.sequence && a.record.sequence < last)

/-- The dropped attempts with a sequence before the first or after the
last. -/
def droppedOutside (attempts : List Attempt) (first last : UInt64) : Nat :=
  attempts.countP fun a =>
    !a.published && (a.record.sequence < first || last < a.record.sequence)

/-! ## Counting attempts -/

/-- The dropped attempts with a sequence up to this one. -/
def droppedUpTo (attempts : List Attempt) (sequence : UInt64) : Nat :=
  attempts.countP fun a => !a.published && a.record.sequence ≤ sequence

section
variable {r : RingHeader} {attempts : List Attempt} {first last : Record}

/-- The attempts up to a sequence are as many as the sequence says. -/
theorem Numbered.countP_upTo (h : Numbered r attempts) {a : Attempt}
    (ha : a ∈ attempts) :
    attempts.countP (fun x => decide (x.record.sequence ≤ a.record.sequence)) =
      a.record.sequence.toNat := by
  obtain ⟨i, hi, rfl⟩ := List.mem_iff_getElem.1 ha
  rw [h.sequence i hi]
  exact countP_le_of_increasing (f := fun a => a.record.sequence.toNat)
    h.increasing hi

theorem countP_acceptedRecords (q : Record → Bool) :
    (acceptedRecords attempts).countP q =
      attempts.countP fun a => a.published && q a.record := by
  rw [acceptedRecords, List.countP_map, List.countP_filter]
  exact List.countP_congr fun a _ => by simp [Bool.and_comm]

theorem mem_of_mem_acceptedRecords {record : Record}
    (h : record ∈ acceptedRecords attempts) :
    ∃ a ∈ attempts, a.published = true ∧ a.record = record := by
  obtain ⟨a, ha, rfl⟩ := List.mem_map.1 h
  obtain ⟨hmem, hpublished⟩ := List.mem_filter.1 ha
  exact ⟨a, hmem, hpublished, rfl⟩

/-- Up to the accepted record at position `p`, all attempts but `p + 1` were
dropped. -/
theorem Numbered.dropped_upTo (h : Numbered r attempts) {p : Nat}
    (hp : p < (acceptedRecords attempts).length) :
    droppedUpTo attempts (acceptedRecords attempts)[p].sequence + (p + 1) =
      (acceptedRecords attempts)[p].sequence.toNat := by
  obtain ⟨a, ha, -, hrecord⟩ := mem_of_mem_acceptedRecords (List.getElem_mem hp)
  have hall := h.countP_upTo ha
  have hkept : (acceptedRecords attempts).countP (fun x =>
      decide (x.sequence ≤ (acceptedRecords attempts)[p].sequence)) = p + 1 :=
    countP_le_of_increasing (f := fun x : Record => x.sequence.toNat)
      h.accepted_increasing hp
  rw [countP_acceptedRecords] at hkept
  rw [hrecord] at hall
  have hsplit := countP_or_of_disjoint (l := attempts)
    (q := fun x => decide (x.record.sequence ≤ (acceptedRecords attempts)[p].sequence))
    (r := fun x => !x.published &&
      decide (x.record.sequence ≤ (acceptedRecords attempts)[p].sequence))
    (s := fun x => x.published &&
      decide (x.record.sequence ≤ (acceptedRecords attempts)[p].sequence))
    (fun x _ => by cases x.published <;> simp)
    (fun x _ => by cases x.published <;> simp)
  rw [droppedUpTo]
  omega

/-- A dropped attempt has a sequence of its own. -/
theorem Numbered.sequence_ne (h : Numbered r attempts) {a : Attempt}
    (ha : a ∈ attempts) (hdropped : a.published = false) {record : Record}
    (hrecord : record ∈ acceptedRecords attempts) :
    a.record.sequence ≠ record.sequence := by
  obtain ⟨b, hb, hpublished, rfl⟩ := mem_of_mem_acceptedRecords hrecord
  obtain ⟨i, hi, rfl⟩ := List.mem_iff_getElem.1 ha
  obtain ⟨j, hj, rfl⟩ := List.mem_iff_getElem.1 hb
  intro heq
  have := h.sequence i hi
  have := h.sequence j hj
  rw [heq] at *
  obtain rfl : i = j := by omega
  rw [hdropped] at hpublished
  cases hpublished

/-- The drops between two accepted records are the drops up to the later
one, less those up to the earlier one. -/
theorem Numbered.dropped_between (h : Numbered r attempts)
    (hlast : last ∈ acceptedRecords attempts)
    (hle : first.sequence ≤ last.sequence) :
    droppedBetween attempts first.sequence last.sequence +
      droppedUpTo attempts first.sequence = droppedUpTo attempts last.sequence := by
  refine (countP_or_of_disjoint ?_ ?_).symm
  · intro a ha
    cases hpublished : a.published with
    | true => rfl
    | false =>
      have hne := h.sequence_ne ha hpublished hlast
      rw [ne_eq, ← UInt64.toNat_inj] at hne
      simp only [Bool.not_false, Bool.true_and, UInt64.le_iff_toNat_le,
        UInt64.lt_iff_toNat_lt] at hle ⊢
      rw [Bool.eq_iff_iff]
      simp only [Bool.or_eq_true, Bool.and_eq_true, decide_eq_true_eq]
      omega
  · intro a ha
    cases a.published with
    | true => rfl
    | false =>
      simp only [Bool.not_false, Bool.true_and, UInt64.le_iff_toNat_le,
        UInt64.lt_iff_toNat_lt]
      rw [Bool.eq_false_iff]
      simp only [ne_eq, Bool.and_eq_true, decide_eq_true_eq]
      omega

/-- From one accepted record to a later one, every sequence is that of an
accepted or of a dropped attempt. -/
theorem Numbered.sequence_between (h : Numbered r attempts) {i j : Nat} (hij : i ≤ j)
    (hj : j < (acceptedRecords attempts).length) :
    droppedBetween attempts (acceptedRecords attempts)[i].sequence
        (acceptedRecords attempts)[j].sequence + (j - i) +
          (acceptedRecords attempts)[i].sequence.toNat =
      (acceptedRecords attempts)[j].sequence.toNat := by
  have hi := h.dropped_upTo (Nat.lt_of_le_of_lt hij hj)
  have hj' := h.dropped_upTo hj
  have horder : (acceptedRecords attempts)[i].sequence ≤
      (acceptedRecords attempts)[j].sequence := by
    rw [UInt64.le_iff_toNat_le]
    rcases Nat.eq_or_lt_of_le hij with rfl | hlt
    · exact Nat.le_refl _
    · exact Nat.le_of_lt (List.pairwise_iff_getElem.1 h.accepted_increasing i j _ hj hlt)
  have hbetween := h.dropped_between (List.getElem_mem hj) horder
  omega

/-- Nothing is between a sequence and itself. -/
theorem droppedBetween_self (attempts : List Attempt) (sequence : UInt64) :
    droppedBetween attempts sequence sequence = 0 := by
  refine List.countP_eq_zero.2 fun a _ => ?_
  simp only [Bool.and_eq_true, decide_eq_true_eq, UInt64.lt_iff_toNat_lt]
  omega

/-- No attempt has the sequence zero, so all drops are outside of it. -/
theorem Numbered.dropped_outside_zero (h : Numbered r attempts) :
    r.producer.droppedNewest.toNat = droppedOutside attempts 0 0 := by
  rw [h.dropped]
  refine List.countP_congr fun a ha => ?_
  obtain ⟨i, hi, rfl⟩ := List.mem_iff_getElem.1 ha
  have hseq := h.sequence i hi
  have hpos : (0 : UInt64) < attempts[i].record.sequence := by
    rw [UInt64.lt_iff_toNat_lt, UInt64.toNat_zero]
    omega
  simp [hpos]

/-- Every drop is between the two records, or outside of them. -/
theorem Numbered.dropped_split (h : Numbered r attempts)
    (hfirst : first ∈ acceptedRecords attempts)
    (hlast : last ∈ acceptedRecords attempts) :
    r.producer.droppedNewest.toNat =
      droppedBetween attempts first.sequence last.sequence +
        droppedOutside attempts first.sequence last.sequence := by
  rw [h.dropped]
  refine countP_or_of_disjoint ?_ ?_
  · intro a ha
    cases hpublished : a.published with
    | true => rfl
    | false =>
      have hne := h.sequence_ne ha hpublished hfirst
      have hne' := h.sequence_ne ha hpublished hlast
      rw [ne_eq, ← UInt64.toNat_inj] at hne hne'
      simp only [Bool.not_false, Bool.true_and, UInt64.lt_iff_toNat_lt]
      rw [eq_comm, Bool.or_eq_true, Bool.and_eq_true, Bool.or_eq_true]
      simp only [decide_eq_true_eq]
      omega
  · intro a _
    cases a.published with
    | true => rfl
    | false =>
      simp only [Bool.not_false, Bool.true_and, UInt64.lt_iff_toNat_lt]
      rw [Bool.eq_false_iff]
      simp only [ne_eq, Bool.and_eq_true, Bool.or_eq_true, decide_eq_true_eq]
      omega

end

/-! ## The ledger of the client -/

namespace RingSystem

variable {s : RingSystem}

/-- The losses, as the client and the bridge count them.  The ledger holds
the sequences of the first and the last received record, or zeros. -/
structure LossAccounted (s : RingSystem) : Prop where
  first : s.client.stats.ledger.firstSequence =
    (s.accounted.head?.map Record.sequence).getD 0
  last : s.client.stats.ledger.lastSequence =
    (s.accounted.getLast?.map Record.sequence).getD 0
  /-- With the mutex free, received are the records behind the local tail. -/
  received : s.drain = none → s.accounted = s.drained
  duplicates : s.client.stats.ledger.duplicateOrReordered = 0
  gaps : s.client.stats.ledger.sequenceGaps.toNat = droppedBetween s.attempts
    s.client.stats.ledger.firstSequence s.client.stats.ledger.lastSequence
  total : s.accounted ≠ [] →
    s.accounted.length + s.client.stats.ledger.sequenceGaps.toNat +
        s.client.stats.ledger.firstSequence.toNat =
      s.client.stats.ledger.lastSequence.toNat + 1
  outside : s.bridge.ring.producer.droppedNewest.toNat =
    s.client.stats.ledger.sequenceGaps.toNat +
      droppedOutside s.attempts s.client.stats.ledger.firstSequence
        s.client.stats.ledger.lastSequence

end RingSystem

namespace RingInv

variable {s : RingSystem}

/-- The received records are consecutive accepted records. -/
theorem accounted_eq (h : RingInv s) :
    ∃ e, s.start ≤ e ∧ e ≤ s.accepted.length ∧
      s.accounted = slice s.accepted s.start e := by
  have hlocal := h.client.local_le
  have hstart := h.client.start_le
  have haccounted := h.client.accounted
  have hlength : s.accounted.length + s.phase.unaccounted.length =
      s.client.localTail.toNat - s.start := by
    rw [← List.length_append, haccounted, slice_length hlocal]
  refine ⟨s.start + s.accounted.length, by omega, by omega, ?_⟩
  have hsplit : slice s.accepted s.start (s.start + s.accounted.length) ++
      slice s.accepted (s.start + s.accounted.length) s.client.localTail.toNat =
        s.accounted ++ s.phase.unaccounted := by
    rw [haccounted, slice_append_slice (by omega) (by omega)]
  have hseg : (slice s.accepted s.start
      (s.start + s.accounted.length)).length = s.accounted.length := by
    rw [slice_length (by omega)]
    omega
  exact (List.append_inj_left hsplit hseg).symm

theorem accounted_of_free (h : RingInv s) (hfree : s.drain = none) :
    s.accounted = s.drained := by
  have haccounted := h.client.accounted
  rw [RingSystem.phase_of_free hfree] at haccounted
  have haccounted : s.accounted ++ [] = s.drained := haccounted
  rwa [List.append_nil] at haccounted

theorem lossAccounted (h : RingInv s) : s.LossAccounted := by
  obtain ⟨hfirst, hlast, hdup, hgaps⟩ := h.client.ledger
  obtain ⟨e, hse, hle, hslice⟩ := h.accounted_eq
  rcases Nat.eq_or_lt_of_le hse with heq | hlt
  · -- Nothing was received, so both ends are zero and every drop is outside.
    have hnone : s.accounted = [] := by
      rw [hslice, ← heq, slice_self]
    have hf0 : s.client.stats.ledger.firstSequence = 0 := by
      rw [hfirst, hnone]
      rfl
    have hl0 : s.client.stats.ledger.lastSequence = 0 := by
      rw [hlast, hnone]
      rfl
    rw [if_pos hnone] at hgaps
    refine ⟨hfirst, hlast, h.accounted_of_free, hdup, ?_, fun hne => absurd hnone hne, ?_⟩
    · rw [hgaps, hf0, hl0, droppedBetween_self]
      rfl
    · rw [hgaps, hf0, hl0, UInt64.toNat_zero, Nat.zero_add]
      exact h.numbered.dropped_outside_zero
  · obtain ⟨hhead, hget⟩ := slice_ends hlt hle
    have hne : s.accounted ≠ [] := by
      rw [hslice]
      intro hnil
      rw [hnil] at hhead
      cases hhead
    have hf : s.client.stats.ledger.firstSequence = s.accepted[s.start].sequence := by
      rw [hfirst, hslice, hhead]
      rfl
    have hl : s.client.stats.ledger.lastSequence = s.accepted[e - 1].sequence := by
      rw [hlast, hslice, hget]
      rfl
    rw [if_neg hne] at hgaps
    have hsum := hgaps.2
    have hlength : s.accounted.length = e - s.start := by
      rw [hslice, slice_length hle]
    have hcount : s.client.stats.ledger.sequenceGaps.toNat =
        droppedBetween s.attempts s.accepted[s.start].sequence
          s.accepted[e - 1].sequence := by
      have hbetween : droppedBetween s.attempts s.accepted[s.start].sequence
          s.accepted[e - 1].sequence + (e - 1 - s.start) +
            s.accepted[s.start].sequence.toNat = s.accepted[e - 1].sequence.toNat :=
        h.numbered.sequence_between (Nat.le_sub_one_of_lt hlt) _
      rw [hf, hl, hlength] at hsum
      omega
    refine ⟨hfirst, hlast, h.accounted_of_free, hdup, ?_, fun _ => ?_, ?_⟩
    · rw [hf, hl]
      exact hcount
    · omega
    · rw [hf, hl, hcount]
      exact h.numbered.dropped_split (List.getElem_mem _) (List.getElem_mem _)

end RingInv

/-- Loss is accounted for exactly, at every point of every run with fewer
than 2^64 - 1 attempts, for a client that starts anywhere in the window. -/
theorem loss_accounted_exactly (x : ClientStart) {labels : List RingLabel}
    {s : RingSystem} (hrun : ringMachine.run x.ringState labels = some s)
    (hlt : s.attempts.length + 1 < 2 ^ 64) : s.LossAccounted :=
  (x.ringInv_run hrun hlt).lossAccounted

/-- A publication, and its announcement. -/
def publishNow : List RingLabel :=
  [.publish 0 0 (blankRecord 0 HFIOR_RECORD_MOTION), .announce .done .done .done]

/-- A drain of the frame thread with an ACK, and its delivery. -/
def drainNow : List RingLabel :=
  [.lockFrame .frameRing true, .load, .copy, .account 0, .push, .count,
    .finish .done, .deliver 0 .done]

theorem loss_accounted_one_gap :
    ∃ s, ringMachine.run (ClientStart.fresh .hfiorLate 1 rfl).ringState
        (publishNow ++ publishNow ++ drainNow ++ publishNow ++ drainNow) = some s ∧
      s.LossAccounted := by
  have hrun : ringMachine.run (ClientStart.fresh .hfiorLate 1 rfl).ringState
      (publishNow ++ publishNow ++ drainNow ++ publishNow ++ drainNow) = some _ := rfl
  exact ⟨_, hrun, loss_accounted_exactly _ hrun (by decide)⟩

end Hfior
