import Hfior.Client.Basic
import Hfior.Library.RunningMax

/-!
# The sequence checker on any records

`account_sequences` keeps the greatest sequence, and compares each record
with it.  `Ledger.At` says what its counters are, with the numbers of
`RunningMax`: the sequences that the greatest one has skipped, and the
records that were late.  One record keeps this (`At.accountOne`), so any list
of records does (`At.account`).

The gaps never wrap, since they are below the greatest sequence.  The counter
of late records wraps behind 2^64 of them, and so the verdict is for lists
of at most 2^64 records.
-/

namespace Hfior

open RunningMax

def Record.sequenceNat (record : Record) : Nat := record.sequence.toNat

/-- The sequences that the bridge gives: not zero, and below 2^64 - 1. -/
def Checkable (records : List Record) : Prop :=
  ∀ r ∈ records, r.sequence ≠ 0 ∧ r.sequenceNat < 2 ^ 64 - 1

instance (records : List Record) : Decidable (Checkable records) :=
  inferInstanceAs (Decidable (∀ r ∈ records, r.sequence ≠ 0 ∧ r.sequenceNat < 2 ^ 64 - 1))

/-- Each sequence is the one before it, plus one. -/
def IsConsecutive (records : List Record) : Prop :=
  records.IsChain fun x y => y.sequenceNat = x.sequenceNat + 1

def IsAscending (records : List Record) : Prop :=
  records.IsChain fun x y => x.sequenceNat < y.sequenceNat

/-- What the counters say of all records. -/
structure LedgerReads (l : Ledger) (records : List Record) : Prop where
  bounded : ∀ r ∈ records, r.sequence ≤ l.lastSequence
  attained : records ≠ [] → ∃ r ∈ records, r.sequence = l.lastSequence
  ascending : IsAscending records → l.duplicateOrReordered = 0 ∧
    ∀ first last, records.head? = some first → records.getLast? = some last →
      (l.sequenceGaps.toNat : Int) =
        last.sequenceNat - first.sequenceNat + 1 - records.length

/-- No gap and no disorder, exactly for consecutive records. -/
def Verdict (l : Ledger) (records : List Record) : Prop :=
  l.sequenceGaps = 0 ∧ l.duplicateOrReordered = 0 ↔ IsConsecutive records

/-! ## One record -/

namespace Ledger

/-- The counters behind the first record: its sequence, the greatest one, the
skipped sequences and the late records. -/
structure At (l : Ledger) (first greatest gaps late : Nat) : Prop where
  first_eq : l.firstSequence.toNat = first
  last_eq : l.lastSequence.toNat = greatest
  gaps_eq : l.sequenceGaps.toNat = gaps
  late_eq : l.duplicateOrReordered.toNat = late % 2 ^ 64
  first_pos : 0 < first
  gaps_lt : gaps < greatest
  greatest_lt : greatest < 2 ^ 64 - 1

variable {l : Ledger} {first greatest gaps late : Nat} {record : Record}
  {records : List Record}

/-- A sequence above the greatest one counts what it skips. -/
theorem At.noteStep_above (h : l.At first greatest gaps late) {sequence : UInt64}
    (hlt : greatest < sequence.toNat) :
    ∃ g, l.noteStep sequence = { l with sequenceGaps := g } ∧
      g.toNat = gaps + skippedStep greatest sequence.toNat := by
  have hlast := h.last_eq
  have hgaps := h.gaps_eq
  have hbelow := h.gaps_lt
  have hmax := sequence.toNat_lt
  have hne : l.lastSequence ≠ 0 := by
    intro hzero
    rw [hzero, UInt64.toNat_zero] at hlast
    omega
  have hle : l.lastSequence ≤ sequence := by
    rw [UInt64.le_iff_toNat_le, hlast]
    exact Nat.le_of_lt hlt
  have hone : (1 : UInt64) ≤ sequence - l.lastSequence := by
    rw [UInt64.le_iff_toNat_le, UInt64.toNat_sub_of_le _ _ hle, UInt64.toNat_one, hlast]
    omega
  have hsub : (sequence - l.lastSequence - 1).toNat = skippedStep greatest sequence.toNat := by
    rw [UInt64.toNat_sub_of_le _ _ hone, UInt64.toNat_sub_of_le _ _ hle, UInt64.toNat_one,
      hlast]
    rfl
  refine ⟨l.sequenceGaps + (sequence - l.lastSequence - 1), ?_, ?_⟩
  · rw [noteStep_frame (by rw [hlast]; exact hlt), if_neg hne]
  · rw [UInt64.toNat_add, hsub, hgaps, Nat.mod_eq_of_lt]
    unfold skippedStep
    omega

/-- A sequence that is not above the greatest one is late. -/
theorem At.noteStep_late (h : l.At first greatest gaps late) {sequence : UInt64}
    (hle : sequence.toNat ≤ greatest) :
    l.noteStep sequence =
      { l with duplicateOrReordered := l.duplicateOrReordered + 1 } := by
  have hlast := h.last_eq
  have hbelow := h.gaps_lt
  have hgreatest := h.greatest_lt
  have hnext : (l.lastSequence + 1).toNat = greatest + 1 := by
    rw [UInt64.toNat_add, UInt64.toNat_one, hlast, Nat.mod_eq_of_lt (by omega)]
  have hzero : ¬ (l.lastSequence == 0) = true := by
    rw [beq_iff_eq, ← UInt64.toNat_inj, hlast, UInt64.toNat_zero]
    omega
  have hsucc : ¬ (sequence == l.lastSequence + 1) = true := by
    rw [beq_iff_eq, ← UInt64.toNat_inj, hnext]
    omega
  have habove : ¬ sequence > l.lastSequence + 1 := by
    rw [gt_iff_lt, UInt64.lt_iff_toNat_lt, hnext]
    omega
  rw [Ledger.noteStep, if_neg hzero, if_neg hsucc, if_neg habove]

/-- Behind the first record the first sequence stays. -/
theorem At.accountOne_eq (h : l.At first greatest gaps late) (hpos : record.sequence ≠ 0) :
    l.accountOne record =
      ((l.noteStep record.sequence).noteLast record.sequence).noteTerminal record := by
  have hnot : ¬ (record.sequence == 0) = true := by simpa using hpos
  have hfirst : ¬ (l.firstSequence == 0) = true := by
    rw [beq_iff_eq, ← UInt64.toNat_inj, h.first_eq, UInt64.toNat_zero]
    exact Nat.pos_iff_ne_zero.1 h.first_pos
  rw [Ledger.accountOne, if_neg hnot, noteFirst, if_neg hfirst]

/-- A record above the greatest one. -/
theorem At.accountOne_above (h : l.At first greatest gaps late) (hpos : record.sequence ≠ 0)
    (hlt : record.sequenceNat < 2 ^ 64 - 1) (habove : greatest < record.sequenceNat) :
    (l.accountOne record).At first record.sequenceNat
      (gaps + skippedStep greatest record.sequenceNat) late := by
  have hbelow := h.gaps_lt
  obtain ⟨g, hstep, hg⟩ := h.noteStep_above habove
  have hgt : ({ l with sequenceGaps := g } : Ledger).lastSequence.toNat <
      record.sequence.toNat := by
    rw [h.last_eq]
    exact habove
  obtain ⟨n, hterminal⟩ := noteTerminal_frame
    { l with sequenceGaps := g, lastSequence := record.sequence } record
  rw [h.accountOne_eq hpos, hstep, noteLast_frame hgt, hterminal]
  constructor
  case first_eq => exact h.first_eq
  case last_eq => rfl
  case gaps_eq => exact hg
  case late_eq => exact h.late_eq
  case first_pos => exact h.first_pos
  case gaps_lt =>
    unfold skippedStep
    omega
  case greatest_lt => exact hlt

/-- A record that is not. -/
theorem At.accountOne_late (h : l.At first greatest gaps late) (hpos : record.sequence ≠ 0)
    (hle : record.sequenceNat ≤ greatest) :
    (l.accountOne record).At first greatest gaps (late + 1) := by
  have hlow : ¬ record.sequence > l.lastSequence := by
    rw [gt_iff_lt, UInt64.lt_iff_toNat_lt, h.last_eq]
    exact Nat.not_lt_of_le hle
  obtain ⟨n, hterminal⟩ := noteTerminal_frame
    { l with duplicateOrReordered := l.duplicateOrReordered + 1 } record
  have hkeeps : ({ l with duplicateOrReordered := l.duplicateOrReordered + 1 } :
      Ledger).noteLast record.sequence =
      { l with duplicateOrReordered := l.duplicateOrReordered + 1 } := if_neg hlow
  rw [h.accountOne_eq hpos, h.noteStep_late hle, hkeeps, hterminal]
  constructor
  case first_eq => exact h.first_eq
  case last_eq => exact h.last_eq
  case gaps_eq => exact h.gaps_eq
  case late_eq =>
    show (l.duplicateOrReordered + 1).toNat = _
    rw [UInt64.toNat_add, h.late_eq, UInt64.toNat_one, Nat.mod_add_mod]
  case first_pos => exact h.first_pos
  case gaps_lt => exact h.gaps_lt
  case greatest_lt => exact h.greatest_lt

/-- What one record does to the counters. -/
theorem At.accountOne (h : l.At first greatest gaps late) (hpos : record.sequence ≠ 0)
    (hlt : record.sequenceNat < 2 ^ 64 - 1) :
    (l.accountOne record).At first (max greatest record.sequenceNat)
      (gaps + skippedStep greatest record.sequenceNat)
      (late + lateStep greatest record.sequenceNat) := by
  rcases Nat.lt_or_ge greatest record.sequenceNat with habove | hle
  · have hon : lateStep greatest record.sequenceNat = 0 := lateStep_eq_zero_iff.2 habove
    rw [max_step habove, hon]
    exact h.accountOne_above hpos hlt habove
  · have hskip : skippedStep greatest record.sequenceNat = 0 := by
      unfold skippedStep
      omega
    have hone : lateStep greatest record.sequenceNat = 1 := if_pos hle
    rw [Nat.max_eq_left hle, hskip, hone]
    exact h.accountOne_late hpos hle

/-! ## All records -/

/-- What any records do to the counters. -/
theorem At.account (h : l.At first greatest gaps late) (hrecords : Checkable records) :
    (l.account records).At first
      (runningMax greatest (records.map Record.sequenceNat))
      (gaps + skipped greatest (records.map Record.sequenceNat))
      (late + RunningMax.late greatest (records.map Record.sequenceNat)) := by
  induction records generalizing l greatest gaps late with
  | nil => exact h
  | cons record records ih =>
    obtain ⟨hpos, hlt⟩ := hrecords record List.mem_cons_self
    have hrest := ih (h.accountOne hpos hlt) fun r hr => hrecords r (List.mem_cons_of_mem _ hr)
    rw [Nat.add_assoc, Nat.add_assoc] at hrest
    exact hrest

/-- The counters behind the first record. -/
theorem at_first (hpos : record.sequence ≠ 0) (hlt : record.sequenceNat < 2 ^ 64 - 1) :
    (zero.accountOne record).At record.sequenceNat record.sequenceNat 0 0 := by
  have hnat : 0 < record.sequenceNat := by
    refine Nat.pos_of_ne_zero fun hzero => hpos ?_
    exact UInt64.toNat_inj.1 hzero
  obtain ⟨n, hone⟩ := accountOne_frame (l := zero) hpos hnat
  rw [hone]
  exact ⟨rfl, rfl, rfl, rfl, hnat, hnat, hlt⟩

/-- The counters behind a list that begins with `record`. -/
theorem at_account (hrecords : Checkable (record :: records)) :
    (zero.account (record :: records)).At record.sequenceNat
      (runningMax record.sequenceNat (records.map Record.sequenceNat))
      (skipped record.sequenceNat (records.map Record.sequenceNat))
      (RunningMax.late record.sequenceNat (records.map Record.sequenceNat)) := by
  obtain ⟨hpos, hlt⟩ := hrecords record List.mem_cons_self
  have hrest := (at_first hpos hlt).account
    (fun r hr => hrecords r (List.mem_cons_of_mem _ hr) : Checkable records)
  rw [Nat.zero_add, Nat.zero_add] at hrest
  exact hrest

/-- Ascending records are not late, and skip what the first and the last one
leave out. -/
theorem account_ascending (hrecords : Checkable (record :: records))
    (hascending : IsAscending (record :: records)) :
    (zero.account (record :: records)).duplicateOrReordered = 0 ∧
      ∀ last, (record :: records).getLast? = some last →
        ((zero.account (record :: records)).sequenceGaps.toNat : Int) =
          last.sequenceNat - record.sequenceNat + 1 - (record :: records).length := by
  have hat := at_account hrecords
  have hchain : (record.sequenceNat :: records.map Record.sequenceNat).IsChain (· < ·) := by
    rw [← List.map_cons, List.isChain_map]
    exact hascending
  have hlate := (late_eq_zero_iff _ _).2 hchain
  have hbalance := skipped_add record.sequenceNat (records.map Record.sequenceNat)
  have hon := hat.late_eq
  rw [hlate] at hon
  refine ⟨UInt64.toNat_inj.1 hon, ?_⟩
  intro last hlast
  have hend : last.sequenceNat =
      runningMax record.sequenceNat (records.map Record.sequenceNat) := by
    have hget := (List.getLast_eq_iff_getLast?_eq_some (List.cons_ne_nil _ _)).2 hlast
    rw [runningMax_of_ascending hchain, ← hget]
    simp only [← List.map_cons, List.getLast_map]
  rw [hlate, ← hend, List.length_map] at hbalance
  rw [List.length_cons, hat.gaps_eq]
  omega

theorem ledgerReads_account (hrecords : Checkable records) :
    LedgerReads (zero.account records) records := by
  cases records with
  | nil =>
    refine ⟨?_, fun hne => absurd rfl hne, fun _ => ⟨rfl, ?_⟩⟩
    · intro r hr
      cases hr
    · intro first last hfirst
      cases hfirst
  | cons record records =>
    have hat := at_account hrecords
    obtain ⟨hmem, hmax⟩ :=
      runningMax_spec record.sequenceNat (records.map Record.sequenceNat)
    rw [← List.map_cons, ← hat.last_eq] at hmem hmax
    constructor
    case bounded =>
      intro r hr
      exact UInt64.le_iff_toNat_le.2 (hmax _ (List.mem_map_of_mem hr))
    case attained =>
      intro _
      obtain ⟨r, hr, heq⟩ := List.mem_map.1 hmem
      exact ⟨r, hr, UInt64.toNat_inj.1 heq⟩
    case ascending =>
      intro hascending
      obtain ⟨hnone, hgaps⟩ := account_ascending hrecords hascending
      refine ⟨hnone, ?_⟩
      intro first last hfirst hlast
      obtain rfl := Option.some.inj hfirst
      exact hgaps last hlast

theorem verdict_account (hrecords : Checkable records) (hlength : records.length ≤ 2 ^ 64) :
    Verdict (zero.account records) records := by
  cases records with
  | nil => exact iff_of_true ⟨rfl, rfl⟩ List.IsChain.nil
  | cons record records =>
    have hat := at_account hrecords
    have hshort : RunningMax.late record.sequenceNat (records.map Record.sequenceNat) <
        2 ^ 64 := by
      have hle := late_le_length record.sequenceNat (records.map Record.sequenceNat)
      rw [List.length_map] at hle
      rw [List.length_cons] at hlength
      omega
    have hon := hat.late_eq
    rw [Nat.mod_eq_of_lt hshort] at hon
    rw [Verdict, ← UInt64.toNat_inj, ← UInt64.toNat_inj, hat.gaps_eq, hon,
      UInt64.toNat_zero, skipped_late_eq_zero_iff, ← List.map_cons, List.isChain_map]
    exact Iff.rfl

end Ledger

/-! ## All batches -/

theorem accountSequences_append (c : Client) (records records' : List Record) :
    accountSequences (accountSequences c records) records' =
      accountSequences c (records ++ records') := by
  unfold accountSequences Ledger.terminalSeen
  dsimp only
  rw [Ledger.account_append, List.any_append, Bool.or_assoc]

/-- The split into batches does not matter. -/
theorem foldl_accountSequences (batches : List (List Record)) (c : Client) :
    batches.foldl accountSequences c = accountSequences c batches.flatten := by
  induction batches generalizing c with
  | nil =>
    unfold accountSequences Ledger.terminalSeen
    rw [List.flatten_nil, List.any_nil, Bool.or_false]
    rfl
  | cons batch batches ih =>
    rw [List.foldl_cons, ih, List.flatten_cons, accountSequences_append]

/-- For any batches of records with sequences that the bridge gives, the
client is the one that all records at once leave, its last sequence is the
greatest one, ascending records leave no disorder and the gaps between them,
and the verdict is right for up to 2^64 records. -/
theorem sequence_checker_reads (c : Client) (batches : List (List Record))
    (hfresh : c.stats.ledger = .zero) (hrecords : Checkable batches.flatten) :
    batches.foldl accountSequences c = accountSequences c batches.flatten ∧
      LedgerReads (batches.foldl accountSequences c).stats.ledger batches.flatten ∧
      (batches.flatten.length ≤ 2 ^ 64 →
        Verdict (batches.foldl accountSequences c).stats.ledger batches.flatten) := by
  have hledger : (batches.foldl accountSequences c).stats.ledger =
      Ledger.zero.account batches.flatten := by
    rw [foldl_accountSequences, accountSequences, hfresh]
  rw [hledger]
  exact ⟨foldl_accountSequences batches c, Ledger.ledgerReads_account hrecords,
    fun hlength => Ledger.verdict_account hrecords hlength⟩

/-- Sequence 3 is missing. -/
theorem sequence_checker_reads_gap :
    LedgerReads ([[blankRecord 1 0, blankRecord 2 0], [blankRecord 4 0]].foldl
        accountSequences (.start .hfiorLate 1 0)).stats.ledger
      [blankRecord 1 0, blankRecord 2 0, blankRecord 4 0] ∧
    Verdict ([[blankRecord 1 0, blankRecord 2 0], [blankRecord 4 0]].foldl
        accountSequences (.start .hfiorLate 1 0)).stats.ledger
      [blankRecord 1 0, blankRecord 2 0, blankRecord 4 0] := by
  have hreads := sequence_checker_reads (.start .hfiorLate 1 0)
    [[blankRecord 1 0, blankRecord 2 0], [blankRecord 4 0]] rfl (by decide)
  exact ⟨hreads.2.1, hreads.2.2 (by decide)⟩

/-! ## The same record again and again -/

section
variable {record : Record} {n : Nat}

theorem not_consecutive_replicate (hn : 2 ≤ n) :
    ¬ IsConsecutive (List.replicate n record) := by
  obtain ⟨k, rfl⟩ : ∃ k, n = k + 2 := ⟨n - 2, by omega⟩
  rw [IsConsecutive, List.replicate_succ, List.replicate_succ, List.isChain_cons_cons]
  rintro ⟨hnext, -⟩
  omega

/-- No gap, and each record behind the first one is late. -/
theorem account_replicate (hrecords : Checkable (List.replicate (n + 1) record)) :
    (Ledger.zero.account (List.replicate (n + 1) record)).sequenceGaps.toNat = 0 ∧
      (Ledger.zero.account (List.replicate (n + 1) record)).duplicateOrReordered.toNat =
        n % 2 ^ 64 := by
  rw [List.replicate_succ] at hrecords ⊢
  have hat := Ledger.at_account hrecords
  have hgaps := hat.gaps_eq
  have hon := hat.late_eq
  have hbalance := skipped_add record.sequenceNat (List.replicate n record.sequenceNat)
  obtain ⟨hmem, -⟩ := runningMax_spec record.sequenceNat (List.replicate n record.sequenceNat)
  have hgreatest : runningMax record.sequenceNat (List.replicate n record.sequenceNat) =
      record.sequenceNat := by
    rcases List.mem_cons.1 hmem with heq | hin
    · exact heq
    · exact List.eq_of_mem_replicate hin
  rw [List.map_replicate] at hgaps hon
  rw [late_replicate] at hbalance hon
  rw [hgreatest, List.length_replicate] at hbalance
  exact ⟨by omega, hon⟩

end

/-- A record that comes 2^64 + 1 times, in batches of one, is not consecutive,
and both counters are zero. -/
theorem verdict_wraps :
    Checkable (List.replicate (2 ^ 64 + 1) [blankRecord 1 0]).flatten ∧
      ¬ Verdict ((List.replicate (2 ^ 64 + 1) [blankRecord 1 0]).foldl
          accountSequences (.start .hfiorLate 1 0)).stats.ledger
        (List.replicate (2 ^ 64 + 1) [blankRecord 1 0]).flatten := by
  have hcheck : ∀ n, Checkable (List.replicate n (blankRecord 1 0)) := by
    intro n r hr
    rw [List.eq_of_mem_replicate hr]
    decide
  rw [foldl_accountSequences, List.flatten_replicate_singleton]
  refine ⟨hcheck _, ?_⟩
  intro hverdict
  obtain ⟨hgaps, hlate⟩ := account_replicate (hcheck (2 ^ 64 + 1))
  rw [Nat.mod_self] at hlate
  have hconsecutive := hverdict.1 ⟨UInt64.toNat_inj.1 hgaps, UInt64.toNat_inj.1 hlate⟩
  exact not_consecutive_replicate (by omega) hconsecutive

end Hfior
