import Hfior.Input.Report

/-!
# The publication trace

With `--trace` every `publish_record` leaves a row, and `dump_publication_trace`
writes the rows at the end.  `TraceRows` says that the rows are the attempts,
one by one, each with the head behind it.

A publication adds its row, and no other call touches the trace, so the rule
of the calls carries it to every run of the program.
-/

namespace Hfior

/-! ## Rows -/

/-- The row of an attempt, where the ring has accepted `accepted` records
with it. -/
structure IsRowOf (row : PublicationTraceEntry) (a : Attempt) (accepted : Nat) : Prop where
  sequence : row.sequence = a.record.sequence
  timestamp : row.sourceTimestampNs = a.record.timestampNs
  published : row.published = if a.published then 1 else 0
  headAfter : row.headAfter.toNat = accepted

/-- The rows of the attempts. -/
inductive TraceRows : List PublicationTraceEntry → List Attempt → Prop where
  | nil : TraceRows [] []
  | snoc {rows : List PublicationTraceEntry} {attempts : List Attempt}
      {row : PublicationTraceEntry} {a : Attempt} (h : TraceRows rows attempts)
      (hrow : IsRowOf row a (acceptedRecords (attempts ++ [a])).length) :
      TraceRows (rows ++ [row]) (attempts ++ [a])

/-- The trace of a bridge with `--trace`, and of one without it. -/
structure Traced (o : AdmittedOptions) (b : Bridge) (attempts : List Attempt) : Prop where
  config : b.config = o.config
  numbered : Numbered b.ring attempts
  ring : RingRepresents o.capacity b attempts
  rows : o.config.tracePath = true → TraceRows b.publicationTrace attempts
  untraced : o.config.tracePath = false → b.publicationTrace = []

/-! ## What a publication adds -/

section
variable (b : Bridge) (beginNs endNs : UInt64) (record : Record) (env : PublishEnv)

/-- The row that an attempt leaves. -/
def attemptRow : PublicationTraceEntry where
  sequence := (publishAttempt b beginNs endNs record).1.record.sequence
  sourceTimestampNs := record.timestampNs
  publishBeginNs := beginNs
  publishEndNs := endNs
  headAfter := (publishAttempt b beginNs endNs record).2.ring.producer.head
  published := if (publishAttempt b beginNs endNs record).1.published then 1 else 0

theorem publishAttempt_trace : (publishAttempt b beginNs endNs record).2.publicationTrace =
    b.publicationTrace ++
      if b.config.tracePath then [attemptRow b beginNs endNs record] else [] := by
  rw [attemptRow, publishAttempt_ring]
  simp only [publishAttempt]
  cases htrace : b.config.tracePath <;> split <;>
    simp [tracePublication, htrace, accountRecordFlags, countPublished, countRingDrop] <;>
    split <;> simp [*]

/-- The announcement does not touch the trace. -/
theorem publishRecord_trace : (publishRecord b env record).bridge.publicationTrace =
    b.publicationTrace ++
      if b.config.tracePath then [attemptRow b env.beginNs env.endNs record] else [] := by
  obtain ⟨sent, dropped, written, urgentFd, stop, hsent⟩ := announce_announced
    (publishAttempt b env.beginNs env.endNs record).2
    (publishAttempt b env.beginNs env.endNs record).1 env.send env.dropUrgent env.urgent
  rw [← publishAttempt_trace]
  simp only [publishRecord, hsent, announced]

end

/-! ## What every call keeps -/

namespace Traced

variable {o : AdmittedOptions} {b b' : Bridge} {attempts : List Attempt}

/-- An operation that touches neither the records nor the trace. -/
theorem quiet (h : Traced o b attempts) (hconfig : b'.config = b.config)
    (hledger : SameLedger b.ring b'.ring) (hring : RingRepresents o.capacity b' attempts)
    (htrace : b'.publicationTrace = b.publicationTrace) : Traced o b' attempts where
  config := hconfig.trans h.config
  numbered := h.numbered.sameLedger hledger
  ring := hring
  rows := by
    rw [htrace]
    exact h.rows
  untraced := by
    rw [htrace]
    exact h.untraced

/-- The next row is the row of the next attempt. -/
theorem publish (h : Traced o b attempts) (env : PublishEnv) (record : Record)
    (hlt : attempts.length < 2 ^ 64 - 2) :
    Traced o (publishRecord b env record).bridge
      (attempts ++ [(publishRecord b env record).attempt]) := by
  have htrace := publishRecord_trace b record env
  rw [h.config] at htrace
  have hring := (ringRepresents_kept o.capacity).publish b attempts env record h.ring (by omega)
  have hhead : (publishAttempt b env.beginNs env.endNs record).2.ring.producer.head =
      (publishRecord b env record).bridge.ring.producer.head :=
    (sameWindow_announce _ _ _ _ _).head.symm
  refine ⟨(publishRecord_device b env record).1.trans h.config,
    numbered_publishRecord h.numbered env record (by omega), hring, ?_, ?_⟩
  · intro htraced
    rw [htrace, if_pos htraced]
    refine .snoc (h.rows htraced) ⟨rfl, rfl, rfl, ?_⟩
    rw [attemptRow, hhead, hring.represents.head]
  · intro huntraced
    rw [htrace, huntraced, h.untraced huntraced]
    rfl

end Traced

theorem writeUrgent_quiet (b : Bridge) (urgent : IoResult) :
    (writeUrgent b urgent).config = b.config ∧
      (writeUrgent b urgent).publicationTrace = b.publicationTrace := by
  cases urgent <;> exact ⟨rfl, rfl⟩

theorem sendDeviceState_quiet (b : Bridge) (flags : UInt16) (send urgent : IoResult) :
    (sendDeviceState b flags send urgent).1.config = b.config ∧
      (sendDeviceState b flags send urgent).1.publicationTrace = b.publicationTrace := by
  unfold sendDeviceState
  split
  · exact ⟨rfl, rfl⟩
  · exact writeUrgent_quiet b urgent

theorem barrierMessage_quiet (b : Bridge) (modeReceived armed : Bool)
    (received : Except Errno (List UInt8)) (send : IoResult) :
    ((barrierMessage b modeReceived received armed send).bridge b).config = b.config ∧
      ((barrierMessage b modeReceived received armed send).bridge b).publicationTrace =
        b.publicationTrace := by
  unfold barrierMessage dispatchBarrier handleStart
  dsimp only
  repeat' split
  all_goals exact ⟨rfl, rfl⟩

theorem handleControlMessage_quiet (b : Bridge) (received : Except Errno (List UInt8))
    (nowNs : UInt64) (urgent : IoResult) :
    (handleControlMessage b received nowNs urgent).bridge.config = b.config ∧
      (handleControlMessage b received nowNs urgent).bridge.publicationTrace =
        b.publicationTrace := by
  unfold handleControlMessage dispatchControl handleSetMode handleAck
  dsimp only
  repeat' split
  all_goals first
    | exact ⟨rfl, rfl⟩
    | exact writeUrgent_quiet _ urgent

theorem tryReconnectDevice_quiet (b : Bridge) (fd : Int32) (send urgent : IoResult) :
    (tryReconnectDevice b fd send urgent).2.1.config = b.config ∧
      (tryReconnectDevice b fd send urgent).2.1.publicationTrace = b.publicationTrace := by
  unfold tryReconnectDevice openInputDevice
  repeat' split
  all_goals first
    | exact ⟨rfl, rfl⟩
    | exact sendDeviceState_quiet _ _ send urgent

theorem traced_kept (o : AdmittedOptions) : KeptByCalls (Traced o) (2 ^ 64 - 2) where
  publish b attempts env record h hlt := h.publish env record hlt
  urgent b attempts urgent h :=
    h.quiet (writeUrgent_quiet b urgent).1 (sameLedger_writeUrgent b urgent)
      ((ringRepresents_kept o.capacity).urgent b attempts urgent h.ring)
      (writeUrgent_quiet b urgent).2
  barrier b attempts modeReceived received armed send h := by
    obtain ⟨hconfig, htrace⟩ := barrierMessage_quiet b modeReceived armed received send
    refine h.quiet hconfig ?_ ((ringRepresents_kept o.capacity).barrier _ _ _ _ _ _ h.ring) htrace
    rw [barrierMessage_ring]
    exact SameLedger.refl _
  control b attempts received nowNs urgent h := by
    obtain ⟨hconfig, htrace⟩ := handleControlMessage_quiet b received nowNs urgent
    exact h.quiet hconfig (sameLedger_handleControlMessage b nowNs urgent received)
      ((ringRepresents_kept o.capacity).control _ _ _ _ _ h.ring) htrace
  gone b attempts send urgent h := by
    obtain ⟨hconfig, htrace⟩ :=
      sendDeviceState_quiet (closeInputDevice b) HFIOR_RECORD_DEVICE_GONE send urgent
    exact h.quiet hconfig (quiet_markDeviceGone b send urgent).ledger
      ((ringRepresents_kept o.capacity).gone _ _ _ _ h.ring) htrace
  reconnect b attempts fd send urgent h := by
    obtain ⟨hconfig, htrace⟩ := tryReconnectDevice_quiet b fd send urgent
    refine h.quiet hconfig ?_ ((ringRepresents_kept o.capacity).reconnect _ _ _ _ _ h.ring) htrace
    rcases tryReconnectDevice_cases b send urgent fd with hquiet | hnext
    · exact hquiet.ledger
    · exact hnext.ledger

theorem traced_program {size features nowNs : UInt64} {device : DeviceIdentity}
    {o : AdmittedOptions} {ops : DoubleOps} {ring : RingHeader} {clientFd inputFd : Int32}
    (hinit : initializeMapping size o.capacity features device 1 nowNs = .ok ring)
    {steps : List ProgramStep} {p : Program}
    (hrun : (programMachine o ops).run (.boot o ring clientFd inputFd) steps = some p)
    (hlt : p.attempts.length + 1 < 2 ^ 64) : Traced o p.bridge.toBridge p.attempts := by
  obtain ⟨hring, hcapacity, -⟩ := represents_initializeMapping hinit
  exact (traced_kept o).program (fun _ => ⟨rfl, numbered_initializeMapping hinit,
    ⟨hring, hcapacity⟩, fun _ => .nil, fun _ => rfl⟩) hrun (by omega)

/-! ## Reading the rows -/

/-- The rows that an analysis keeps. -/
def publishedRows (rows : List PublicationTraceEntry) : List PublicationTraceEntry :=
  rows.filter (·.published != 0)

/-- The row of an accepted record at this position. -/
structure IsRowAt (row : PublicationTraceEntry) (record : Record) (position : Nat) : Prop where
  sequence : row.sequence = record.sequence
  timestamp : row.sourceTimestampNs = record.timestampNs
  headAfter : row.headAfter.toNat = position + 1

namespace TraceRows

variable {rows : List PublicationTraceEntry} {attempts : List Attempt}

theorem length_eq (h : TraceRows rows attempts) : rows.length = attempts.length := by
  induction h with
  | nil => rfl
  | snoc h hrow ih => rw [List.length_append, List.length_append, ih]; rfl

/-- Each row is the one of its attempt. -/
theorem row (h : TraceRows rows attempts) {i : Nat} {row : PublicationTraceEntry} {a : Attempt}
    (hrow : rows[i]? = some row) (ha : attempts[i]? = some a) :
    IsRowOf row a (acceptedRecords (attempts.take (i + 1))).length := by
  induction h with
  | nil => cases ha
  | snoc h hlast ih =>
    rename_i rows attempts last lastAttempt
    have hlength := h.length_eq
    by_cases hi : i < attempts.length
    · rw [List.getElem?_append_left (by omega)] at hrow ha
      rw [List.take_append_of_le_length (by omega)]
      exact ih hrow ha
    · have hi' : i = attempts.length := by
        have hlt := (List.getElem?_eq_some_iff.1 ha).1
        rw [List.length_append, List.length_singleton] at hlt
        omega
      rw [hi', List.getElem?_concat_length] at ha
      rw [hi', ← hlength, List.getElem?_concat_length] at hrow
      rw [← Option.some.inj hrow, ← Option.some.inj ha, hi', List.take_of_length_le (by simp)]
      exact hlast

/-- The published rows are the accepted records. -/
theorem published (h : TraceRows rows attempts) :
    (publishedRows rows).length = (acceptedRecords attempts).length ∧
    ∀ position row record, (publishedRows rows)[position]? = some row →
      (acceptedRecords attempts)[position]? = some record → IsRowAt row record position := by
  induction h with
  | nil => exact ⟨rfl, fun _ _ _ hrow => by cases hrow⟩
  | snoc h hlast ih =>
    rename_i rows attempts last lastAttempt
    obtain ⟨hlength, hrows⟩ := ih
    cases hpublished : lastAttempt.published with
    | false =>
      have hzero : last.published = 0 := by
        rw [hlast.published, hpublished]
        rfl
      have hkept : publishedRows (rows ++ [last]) = publishedRows rows := by
        simp [publishedRows, hzero]
      rw [hkept, acceptedRecords_append_of_dropped hpublished]
      exact ⟨hlength, hrows⟩
    | true =>
      have hone : last.published = 1 := by
        rw [hlast.published, hpublished]
        rfl
      have hkept : publishedRows (rows ++ [last]) = publishedRows rows ++ [last] := by
        simp [publishedRows, hone]
      have hhead := hlast.headAfter
      rw [acceptedRecords_append_of_published hpublished, List.length_append,
        List.length_singleton] at hhead
      rw [hkept, acceptedRecords_append_of_published hpublished]
      refine ⟨by rw [List.length_append, List.length_append, hlength]; rfl, ?_⟩
      intro position row record hrow hrecord
      by_cases hold : position < (acceptedRecords attempts).length
      · rw [List.getElem?_append_left (by omega)] at hrow hrecord
        exact hrows position row record hrow hrecord
      · have hlt := (List.getElem?_eq_some_iff.1 hrecord).1
        rw [List.length_append, List.length_singleton] at hlt
        obtain rfl : position = (acceptedRecords attempts).length := by omega
        rw [List.getElem?_concat_length] at hrecord
        rw [← hlength, List.getElem?_concat_length] at hrow
        rw [← Option.some.inj hrow, ← Option.some.inj hrecord]
        exact ⟨hlast.sequence, hlast.timestamp, hhead⟩

end TraceRows

/-- In every run of the program with `--trace` and fewer than 2^64 - 1 attempts
the rows are the attempts, in order: row `i` has the number `i + 1`, the time and
the outcome of attempt `i`, and the count of the records that the ring had
accepted by then.  So an accepted record has one row, and the row says where
in the ring it is. -/
theorem trace_exact {size features nowNs : UInt64} {device : DeviceIdentity}
    {o : AdmittedOptions} {ops : DoubleOps} {ring : RingHeader} {clientFd inputFd : Int32}
    (hinit : initializeMapping size o.capacity features device 1 nowNs = .ok ring)
    (htrace : o.config.tracePath = true) {steps : List ProgramStep} {p : Program}
    (hrun : (programMachine o ops).run (.boot o ring clientFd inputFd) steps = some p)
    (hlt : p.attempts.length + 1 < 2 ^ 64) :
    p.bridge.publicationTrace.length = p.attempts.length ∧
    (∀ i row a, p.bridge.publicationTrace[i]? = some row → p.attempts[i]? = some a →
      row.sequence.toNat = i + 1 ∧
      IsRowOf row a (acceptedRecords (p.attempts.take (i + 1))).length) ∧
    ∀ position record, (acceptedRecords p.attempts)[position]? = some record →
      ∃ row ∈ p.bridge.publicationTrace, IsRowAt row record position ∧ row.published = 1 ∧
        ∀ row' ∈ p.bridge.publicationTrace, row'.sequence = record.sequence → row' = row := by
  have htraced := traced_program hinit hrun hlt
  have hrows := htraced.rows htrace
  have hnumbered : ∀ i row, p.bridge.publicationTrace[i]? = some row →
      row.sequence.toNat = i + 1 := by
    intro i row hrow
    have hi := (List.getElem?_eq_some_iff.1 hrow).1
    rw [hrows.length_eq] at hi
    have ha : p.attempts[i]? = some p.attempts[i] := List.getElem?_eq_getElem hi
    rw [(hrows.row hrow ha).sequence]
    exact htraced.numbered.sequence i hi
  refine ⟨hrows.length_eq, fun i row a hrow ha => ⟨hnumbered i row hrow, hrows.row hrow ha⟩, ?_⟩
  intro position record hrecord
  obtain ⟨hlength, hpublished⟩ := hrows.published
  have hposition := (List.getElem?_eq_some_iff.1 hrecord).1
  rw [← hlength] at hposition
  have hrow : (publishedRows p.bridge.publicationTrace)[position]? =
      some (publishedRows p.bridge.publicationTrace)[position] :=
    List.getElem?_eq_getElem hposition
  have hat := hpublished position _ record hrow hrecord
  generalize (publishedRows p.bridge.publicationTrace)[position] = row at hrow hat
  have hmem := List.mem_of_getElem? hrow
  rw [publishedRows, List.mem_filter, bne_iff_ne] at hmem
  obtain ⟨i, hi⟩ := List.getElem?_of_mem hmem.1
  refine ⟨row, hmem.1, hat, ?_, ?_⟩
  · have ha := List.getElem?_eq_getElem
      (hrows.length_eq ▸ (List.getElem?_eq_some_iff.1 hi).1 : i < p.attempts.length)
    have hone := (hrows.row hi ha).published
    split at hone
    · exact hone
    · exact absurd hone hmem.2
  · intro row' hmem' hsame
    obtain ⟨j, hj⟩ := List.getElem?_of_mem hmem'
    have hi' := hnumbered i row hi
    have hj' := hnumbered j row' hj
    rw [hsame, ← hat.sequence, hi'] at hj'
    obtain rfl : j = i := by omega
    exact Option.some.inj (hj.symm.trans hi)

/-- A device, with a trace. -/
def tracedOptions : AdmittedOptions :=
  { deviceOptions with config := ⟨true, true⟩, admitted := rfl }

/-- Two rows: the frame at position 0, and the terminal record at position 1. -/
theorem trace_exact_device :
    ∃ p, (programMachine tracedOptions .exact).run
        (.boot tracedOptions (freshBridge 64).ring 5 6) deviceSteps = some p ∧
      p.bridge.publicationTrace.length = 2 ∧
      p.bridge.publicationTrace.length = p.attempts.length ∧
      (∃ row a, p.bridge.publicationTrace[1]? = some row ∧ p.attempts[1]? = some a ∧
        row.sequence.toNat = 2 ∧ IsRowOf row a 2) ∧
      ∃ record row, (acceptedRecords p.attempts)[0]? = some record ∧
        row ∈ p.bridge.publicationTrace ∧ IsRowAt row record 0 ∧ row.published = 1 ∧
        ∀ row' ∈ p.bridge.publicationTrace, row'.sequence = record.sequence → row' = row := by
  have hinit : initializeMapping (mappingSize 64) tracedOptions.capacity 0 ⟨[], 0, 0, 0, 0⟩ 1 0 =
      .ok (freshBridge 64).ring := rfl
  have hrun : (programMachine tracedOptions .exact).run
      (.boot tracedOptions (freshBridge 64).ring 5 6) deviceSteps = some _ := rfl
  obtain ⟨hlength, hrows, haccepted⟩ := trace_exact hinit rfl hrun (by decide)
  obtain ⟨row, hmem, hrow⟩ := haccepted 0 _ rfl
  exact ⟨_, hrun, rfl, hlength, ⟨_, _, rfl, rfl, hrows 1 _ _ rfl rfl⟩, _, row, rfl, hmem, hrow⟩

end Hfior
