import Hfior.Abi
import Mathlib.Data.List.Basic

/-!
# The sequence ledger of the latency client

`account_sequences` of `reference/latency-client/main.c`, with the five
counters of `struct client_stats` that it writes.  The flag `terminal_seen`
that it sets is `terminalSeen`.

`Ledger.Of l received` says what the counters are after the records
`received` with increasing sequences: nothing was duplicated, and the gaps
are the numbers between the first and the last that did not come.
-/

namespace Hfior

structure Ledger where
  firstSequence : UInt64
  lastSequence : UInt64
  sequenceGaps : UInt64
  duplicateOrReordered : UInt64
  terminalRecords : UInt64
deriving DecidableEq, Repr

namespace Ledger

/-- The counters before the first record. -/
def zero : Ledger := ⟨0, 0, 0, 0, 0⟩

def noteFirst (l : Ledger) (sequence : UInt64) : Ledger :=
  if l.firstSequence == 0 then { l with firstSequence := sequence } else l

/-- The comparison with the last sequence, once there is one. -/
def noteStep (l : Ledger) (sequence : UInt64) : Ledger :=
  if l.lastSequence == 0 then l
  else if sequence == l.lastSequence + 1 then l
  else if sequence > l.lastSequence + 1 then
    { l with sequenceGaps := l.sequenceGaps + (sequence - l.lastSequence - 1) }
  else { l with duplicateOrReordered := l.duplicateOrReordered + 1 }

def noteLast (l : Ledger) (sequence : UInt64) : Ledger :=
  if sequence > l.lastSequence then { l with lastSequence := sequence } else l

def noteTerminal (l : Ledger) (record : Record) : Ledger :=
  if record.has HFIOR_RECORD_TERMINATE then
    { l with terminalRecords := l.terminalRecords + 1 }
  else l

/-- The body of the loop of `account_sequences`.  A record without a
sequence is skipped. -/
def accountOne (l : Ledger) (record : Record) : Ledger :=
  if record.sequence == 0 then l
  else (((l.noteFirst record.sequence).noteStep record.sequence).noteLast
    record.sequence).noteTerminal record

/-- `account_sequences`. -/
def account (l : Ledger) (records : List Record) : Ledger :=
  records.foldl accountOne l

theorem account_append (l : Ledger) (records records' : List Record) :
    l.account (records ++ records') = (l.account records).account records' :=
  List.foldl_append

/-- Whether `account_sequences` sets `terminal_seen`. -/
def terminalSeen (records : List Record) : Bool :=
  records.any fun record =>
    record.sequence != 0 && record.has HFIOR_RECORD_TERMINATE

/-- The counters after records of increasing sequences. -/
structure Of (l : Ledger) (received : List Record) : Prop where
  first : l.firstSequence = (received.head?.map Record.sequence).getD 0
  last : l.lastSequence = (received.getLast?.map Record.sequence).getD 0
  duplicates : l.duplicateOrReordered = 0
  gaps : if received = [] then l.sequenceGaps = 0
    else l.firstSequence ≠ 0 ∧
      l.sequenceGaps.toNat + received.length + l.firstSequence.toNat =
        l.lastSequence.toNat + 1

variable {l : Ledger} {received batch : List Record} {record : Record}

theorem of_zero : zero.Of [] := ⟨rfl, rfl, rfl, rfl⟩

/-! ### The parts of the loop body -/

theorem noteFirst_frame (l : Ledger) (sequence : UInt64) :
    l.noteFirst sequence = { l with firstSequence :=
      if l.firstSequence = 0 then sequence else l.firstSequence } := by
  simp only [noteFirst, beq_iff_eq]
  split <;> rfl

/-- Above the last sequence a step counts the missing numbers, and no
duplicate. -/
theorem noteStep_frame {sequence : UInt64}
    (hlt : l.lastSequence.toNat < sequence.toNat) :
    l.noteStep sequence = { l with sequenceGaps :=
      if l.lastSequence = 0 then l.sequenceGaps
      else l.sequenceGaps + (sequence - l.lastSequence - 1) } := by
  have hnext : (l.lastSequence + 1).toNat = l.lastSequence.toNat + 1 := by
    have := sequence.toNat_lt
    rw [UInt64.toNat_add, UInt64.toNat_one, Nat.mod_eq_of_lt (by omega)]
  simp only [noteStep, beq_iff_eq]
  split
  · rfl
  split
  · rename_i heq
    rw [heq, UInt64.add_comm l.lastSequence, UInt64.add_sub_cancel, UInt64.sub_self,
      UInt64.add_zero]
  split
  · rfl
  · rename_i hne hgt
    have hle : ¬ (l.lastSequence + 1).toNat < sequence.toNat :=
      fun h => hgt (UInt64.lt_iff_toNat_lt.2 h)
    have : sequence.toNat = (l.lastSequence + 1).toNat := by omega
    exact absurd (UInt64.toNat_inj.1 this) hne

theorem noteLast_frame {sequence : UInt64}
    (hlt : l.lastSequence.toNat < sequence.toNat) :
    l.noteLast sequence = { l with lastSequence := sequence } :=
  if_pos (UInt64.lt_iff_toNat_lt.2 hlt)

theorem noteTerminal_frame (l : Ledger) (record : Record) :
    ∃ n, l.noteTerminal record = { l with terminalRecords := n } := by
  unfold noteTerminal
  split
  · exact ⟨_, rfl⟩
  · exact ⟨l.terminalRecords, rfl⟩

/-- What a record above the last sequence does to the counters. -/
theorem accountOne_frame (hpos : record.sequence ≠ 0)
    (hlt : l.lastSequence.toNat < record.sequence.toNat) :
    ∃ n, l.accountOne record = {
      firstSequence :=
        if l.firstSequence = 0 then record.sequence else l.firstSequence
      lastSequence := record.sequence
      sequenceGaps :=
        if l.lastSequence = 0 then l.sequenceGaps
        else l.sequenceGaps + (record.sequence - l.lastSequence - 1)
      duplicateOrReordered := l.duplicateOrReordered
      terminalRecords := n } := by
  have hnot : ¬ (record.sequence == 0) = true := by simpa using hpos
  rw [accountOne, if_neg hnot, noteFirst_frame, noteStep_frame (by exact hlt),
    noteLast_frame (by exact hlt)]
  exact noteTerminal_frame _ record

/-- The next record of increasing sequence. -/
theorem Of.append (h : l.Of received) (hpos : record.sequence ≠ 0)
    (hlt : l.lastSequence.toNat < record.sequence.toNat) :
    (l.accountOne record).Of (received ++ [record]) := by
  obtain ⟨n, hone⟩ := accountOne_frame hpos hlt
  rw [hone]
  have hlast : record.sequence =
      ((received ++ [record]).getLast?.map Record.sequence).getD 0 := by
    rw [List.getLast?_append]
    rfl
  rcases received.eq_nil_or_concat with rfl | hcons
  · have hf0 : l.firstSequence = 0 := h.first
    have hl0 : l.lastSequence = 0 := h.last
    have hg0 : l.sequenceGaps = 0 := h.gaps
    simp only [if_pos hf0, if_pos hl0, hg0]
    refine ⟨rfl, hlast, h.duplicates, ?_⟩
    rw [if_neg (by simp)]
    refine ⟨hpos, ?_⟩
    simp only [UInt64.toNat_zero, List.nil_append, List.length_singleton]
    omega
  · have hne : received ≠ [] := by
      obtain ⟨init, x, rfl⟩ := hcons
      simp
    have hgaps := h.gaps
    rw [if_neg hne] at hgaps
    obtain ⟨hf0, hsum⟩ := hgaps
    have hlength : 0 < received.length := List.length_pos_iff.2 hne
    have hl0 : l.lastSequence ≠ 0 := by
      intro h0
      rw [h0, UInt64.toNat_zero] at hsum
      exact hf0 (UInt64.toNat_inj.1 (by rw [UInt64.toNat_zero]; omega))
    simp only [if_neg hf0, if_neg hl0]
    refine ⟨?_, hlast, h.duplicates, ?_⟩
    · rw [List.head?_append_of_ne_nil _ hne]
      exact h.first
    · rw [if_neg (by simp)]
      refine ⟨hf0, ?_⟩
      have hle : l.lastSequence ≤ record.sequence :=
        UInt64.le_iff_toNat_le.2 (Nat.le_of_lt hlt)
      have hone' : (1 : UInt64) ≤ record.sequence - l.lastSequence := by
        rw [UInt64.le_iff_toNat_le, UInt64.toNat_sub_of_le _ _ hle, UInt64.toNat_one]
        omega
      have hsub : (record.sequence - l.lastSequence - 1).toNat =
          record.sequence.toNat - l.lastSequence.toNat - 1 := by
        rw [UInt64.toNat_sub_of_le _ _ hone', UInt64.toNat_sub_of_le _ _ hle,
          UInt64.toNat_one]
      have := record.sequence.toNat_lt
      show (l.sequenceGaps + (record.sequence - l.lastSequence - 1)).toNat +
        (received ++ [record]).length + l.firstSequence.toNat =
          record.sequence.toNat + 1
      rw [UInt64.toNat_add, hsub, Nat.mod_eq_of_lt (by omega), List.length_append,
        List.length_singleton]
      omega

/-- A batch of increasing sequences behind those received before. -/
theorem Of.account (h : l.Of received)
    (hincreasing : (received ++ batch).Pairwise
      fun x y => x.sequence.toNat < y.sequence.toNat)
    (hpos : ∀ record ∈ batch, record.sequence ≠ 0) :
    (l.account batch).Of (received ++ batch) := by
  induction batch generalizing l received with
  | nil => simpa [Ledger.account] using h
  | cons record batch ih =>
    have hlt : l.lastSequence.toNat < record.sequence.toNat := by
      rw [h.last]
      cases hlast : received.getLast? with
      | none =>
        have := hpos record List.mem_cons_self
        exact Nat.pos_of_ne_zero fun h0 => this (UInt64.toNat_inj.1 h0)
      | some x =>
        have hmem : x ∈ received := List.mem_of_getLast? hlast
        exact (List.pairwise_append.1 hincreasing).2.2 x hmem record
          List.mem_cons_self
    have hone := h.append (hpos record List.mem_cons_self) hlt
    rw [List.append_cons] at hincreasing ⊢
    exact ih hone hincreasing fun r hr => hpos r (List.mem_cons_of_mem _ hr)

end Ledger

end Hfior
