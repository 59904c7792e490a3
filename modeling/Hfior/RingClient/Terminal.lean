import Hfior.Input.Report
import Hfior.RingClient.Handoff
import Hfior.RingClient.Loss

/-!
# The end of the stream

The main loop of the client, and its shutdown, go on until `terminal_seen`.
For a ring policy the flag is set by `account_sequences` alone, so it says
what the accounted records say (`accounts_run`).

The bridge and the client are two programs with one ring between them.
`terminal_seen_iff` takes a run of each: what the client knows by its flag is
that the bridge is behind its main loop, and that nothing is left to read.
-/

namespace Hfior

/-! ## The terminal record among the accepted ones -/

/-- The accounted records are accepted ones, from the first position on. -/
theorem RingInv.accounted_prefix_drop {s : RingSystem} (h : RingInv s) :
    s.accounted <+: s.accepted.drop s.start := by
  refine List.IsPrefix.trans ⟨s.phase.unaccounted, h.client.accounted⟩ ?_
  rw [slice, List.drop_take]
  exact List.take_prefix _ _

theorem acceptedRecords_mono {attempts attempts' : List Attempt}
    (hgrow : attempts <+: attempts') : acceptedRecords attempts <+: acceptedRecords attempts' := by
  obtain ⟨rest, rfl⟩ := hgrow
  refine ⟨acceptedRecords rest, ?_⟩
  simp [acceptedRecords]

/-- An accepted record of a list of unmarked attempts is unmarked. -/
theorem unmarked_of_mem {attempts : List Attempt}
    (h : ∀ a ∈ attempts, a.record.has HFIOR_RECORD_TERMINATE = false) {record : Record}
    (hmem : record ∈ acceptedRecords attempts) :
    record.has HFIOR_RECORD_TERMINATE = false := by
  obtain ⟨a, ha, rfl⟩ := List.mem_map.1 hmem
  exact h a (List.mem_filter.1 ha).1

/-- The program has published its terminal record. -/
structure TerminalPublished (p : Program) : Prop where
  ended : p.isEnded = true
  published : ∃ last, p.attempts.getLast? = some last ∧ last.published = true

section
variable {size features nowNs : UInt64} {device : DeviceIdentity} {o : AdmittedOptions}
  {ops : DoubleOps} {ring : RingHeader} {clientFd inputFd : Int32} {steps : List ProgramStep}
  {p : Program}

/-- A marked record that the ring has accepted is the terminal record. -/
theorem terminalPublished_of_marked
    (hrun : (programMachine o ops).run (.boot o ring clientFd inputFd) steps = some p)
    {record : Record} (hmem : record ∈ acceptedRecords p.attempts)
    (hmarked : record.has HFIOR_RECORD_TERMINATE = true) : TerminalPublished p := by
  obtain ⟨hgoing, hended⟩ := program_session hrun
  cases hend : p.isEnded with
  | false =>
    rw [unmarked_of_mem (hgoing hend).unmarked hmem] at hmarked
    cases hmarked
  | true =>
    obtain ⟨stop, last, hframes, -, hlast, -⟩ := hended hend
    refine ⟨hend, last, by rw [hlast, List.getLast?_concat], ?_⟩
    by_contra hdropped
    rw [Bool.not_eq_true] at hdropped
    rw [hlast, acceptedRecords_append_of_dropped hdropped] at hmem
    rw [unmarked_of_mem hframes.unmarked hmem] at hmarked
    cases hmarked

/-- The terminal record is the last accepted one. -/
theorem TerminalPublished.getLast? (h : TerminalPublished p)
    (hrun : (programMachine o ops).run (.boot o ring clientFd inputFd) steps = some p) :
    ∃ record, (acceptedRecords p.attempts).getLast? = some record ∧
      record.has HFIOR_RECORD_TERMINATE = true := by
  obtain ⟨stop, last, -, -, hlast, hterminal⟩ := (program_session hrun).2 h.ended
  obtain ⟨last', hlast', hpublished⟩ := h.published
  rw [hlast, List.getLast?_concat] at hlast'
  obtain rfl := Option.some.inj hlast'
  refine ⟨last.record, ?_, ?_⟩
  · rw [hlast, acceptedRecords_append_of_published hpublished, List.getLast?_concat]
  · rw [Record.has, hterminal.flags]
    rfl

/-- What the flag of the client means.  For every run of the bridge program
and every run of the ring client on the attempts that the bridge had made by
then, with fewer than 2^64 - 1 attempts: `terminal_seen` is set if and only if
the bridge has published its terminal record, the ring has accepted a record
behind the first position of the client, and the client has accounted every
such record that the ring ever accepted. -/
theorem terminal_seen_iff
    (hinit : initializeMapping size o.capacity features device 1 nowNs = .ok ring)
    (hopen : o.config.devicePath = true → 0 ≤ inputFd)
    (hprogram : (programMachine o ops).run (.boot o ring clientFd inputFd) steps = some p)
    (hlt : p.attempts.length + 1 < 2 ^ 64)
    (x : ClientStart) {labels : List RingLabel} {s : RingSystem}
    (hrun : ringMachine.run x.ringState labels = some s) (hpart : s.attempts <+: p.attempts) :
    s.client.terminalSeen = true ↔
      TerminalPublished p ∧ s.start < (acceptedRecords p.attempts).length ∧
        s.accounted = (acceptedRecords p.attempts).drop s.start := by
  have hinv : RingInv s :=
    x.ringInv_run hrun (Nat.lt_of_le_of_lt (Nat.succ_le_succ hpart.length_le) hlt)
  have hledgers := ledgersAgree_program hinit hopen hprogram hlt
  have hprefix : s.accounted <+: (acceptedRecords p.attempts).drop s.start :=
    hinv.accounted_prefix_drop.trans ((acceptedRecords_mono hpart).drop s.start)
  rw [(accounts_run x hrun).terminalSeen]
  constructor
  · intro hseen
    obtain ⟨record, hmem, hmarked⟩ := List.any_eq_true.1 hseen
    have hmarked : record.has HFIOR_RECORD_TERMINATE = true := (Bool.and_eq_true_iff.1 hmarked).2
    obtain ⟨i, hi, hget⟩ := List.mem_iff_getElem.1 hmem
    -- The record is the last one, so the accounted records reach the end.
    have hposition : (acceptedRecords p.attempts)[s.start + i]? = some record := by
      rw [← List.getElem?_drop, List.getElem?_eq_getElem (Nat.lt_of_lt_of_le hi hprefix.length_le),
        ← hprefix.getElem hi, hget]
    obtain ⟨hlast, -, -⟩ := terminate_is_last hinit hopen hprogram hlt hposition hmarked
    rw [hledgers.head] at hlast
    have hlength : ((acceptedRecords p.attempts).drop s.start).length ≤ s.accounted.length := by
      rw [List.length_drop]
      omega
    exact ⟨terminalPublished_of_marked hprogram (List.mem_of_getElem? hposition) hmarked,
      by omega, hprefix.eq_of_length_le hlength⟩
  · rintro ⟨hterminal, hstart, haccounted⟩
    obtain ⟨record, hlast, hmarked⟩ := hterminal.getLast? hprogram
    have hmem : record ∈ s.accounted := by
      rw [haccounted]
      refine List.mem_of_getLast? ?_
      rw [List.getLast?_drop, if_neg (by omega), hlast]
    have hpositive : record.sequence ≠ 0 :=
      hledgers.numbered.accepted_pos record (List.mem_of_getLast? hlast)
    exact List.any_eq_true.2 ⟨record, hmem,
      Bool.and_eq_true_iff.2 ⟨bne_iff_ne.2 hpositive, hmarked⟩⟩

end

/-- A client drains the two records of a device session at once. -/
theorem terminal_seen_iff_device :
    ∃ p s, (programMachine deviceOptions .exact).run
        (.boot deviceOptions (freshBridge 64).ring 5 6) deviceSteps = some p ∧
      ringMachine.run (ClientStart.fresh .hfiorLate 64 rfl).ringState
        ([.publish 0 0 ⟨0, 0, 5, 0, 0, 0, 0, HFIOR_RECORD_MOTION⟩,
            .announce .done .done .done,
            .publish 0 0 ⟨0, 300000001, 0, 0, 0, 0, 0, HFIOR_RECORD_TERMINATE⟩,
            .announce .done .done .done] ++ drainNow) = some s ∧
      s.attempts = p.attempts ∧
      (s.client.terminalSeen = true ↔ TerminalPublished p ∧
        s.start < (acceptedRecords p.attempts).length ∧
        s.accounted = (acceptedRecords p.attempts).drop s.start) ∧
      s.client.terminalSeen = true := by
  have hinit : initializeMapping (mappingSize 64) deviceOptions.capacity 0 ⟨[], 0, 0, 0, 0⟩ 1 0 =
      .ok (freshBridge 64).ring := rfl
  have hprogram : (programMachine deviceOptions .exact).run
      (.boot deviceOptions (freshBridge 64).ring 5 6) deviceSteps = some _ := rfl
  have hopen : deviceOptions.config.devicePath = true → (0 : Int32) ≤ 6 := by decide
  have hrun : ringMachine.run (ClientStart.fresh .hfiorLate 64 rfl).ringState
      ([.publish 0 0 ⟨0, 0, 5, 0, 0, 0, 0, HFIOR_RECORD_MOTION⟩,
          .announce .done .done .done,
          .publish 0 0 ⟨0, 300000001, 0, 0, 0, 0, 0, HFIOR_RECORD_TERMINATE⟩,
          .announce .done .done .done] ++ drainNow) = some _ := rfl
  exact ⟨_, _, hprogram, hrun, rfl,
    terminal_seen_iff hinit hopen hprogram (by decide) _ hrun (List.prefix_refl _), rfl⟩

end Hfior
