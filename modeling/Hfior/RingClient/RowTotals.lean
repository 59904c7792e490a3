import Hfior.RingClient.RowsExact

/-!
# What the summary says about the rows

The counters and the vectors that the frames keep for `write_summary` are those
of the rows of `frames.csv` (`summary_of_rows`), so a percentile of
`summary.json` is one of a column of `frames.csv`.

In the middle of a frame the actions are ahead of the observations, and so are
the counters of the late latch, from `actLate` on (`lateDone`).
-/

namespace Hfior

/-! ## The counters of the rows -/

/-- A row with an age. -/
def FrameObservation.sampled (row : FrameObservation) : Bool :=
  row.records != 0 && row.newestTimestampNs != 0

/-- The late records of the rows that the late latch counts. -/
def lateOf (policy : ClientPolicy) (rows : List FrameObservation) : List UInt64 :=
  if policy = .hfiorLateLatch then rows.map (·.lateRecords) else []

/-- The sum of a column, as the counters add it up. -/
def columnSum (column : List UInt64) : UInt64 :=
  column.foldl (· + ·) 0

theorem columnSum_concat (column : List UInt64) (n : UInt64) :
    columnSum (column ++ [n]) = columnSum column + n := by
  rw [columnSum, List.foldl_append]
  rfl

/-- The counters and the vectors of the rows. -/
def FrameStats.ofRows (policy : ClientPolicy) (rows : List FrameObservation) : FrameStats where
  frames := .ofNat rows.length
  inputConsumptions := .ofNat rows.length
  expensiveActions := columnSum (rows.map (·.expensiveActions))
  lateLatchActions := .ofNat ((lateOf policy rows).countP (· != 0))
  lateLatchRecords := columnSum (lateOf policy rows)
  framesWithLateLatch := .ofNat ((lateOf policy rows).countP (· != 0))
  sampleAges := (rows.filter (·.sampled)).map (·.actualAgeNs)
  legacyAges := (rows.filter (·.sampled)).map (·.legacyAgeNs)
  latchCosts := rows.map (·.latchCostNs)
  startLateness := rows.map (·.startLatenessNs)

/-! ## In the middle of a frame -/

/-- What `run_frame_policy` has counted at its end. -/
structure FrameStats.Observed (stats : FrameStats) (rows : List FrameObservation) : Prop where
  consumptions : stats.inputConsumptions = .ofNat rows.length
  sampleAges : stats.sampleAges = (rows.filter (·.sampled)).map (·.actualAgeNs)
  legacyAges : stats.legacyAges = (rows.filter (·.sampled)).map (·.legacyAgeNs)
  latchCosts : stats.latchCosts = rows.map (·.latchCostNs)
  startLateness : stats.startLateness = rows.map (·.startLatenessNs)

/-- What the late latch has counted. -/
structure FrameStats.LateCounted (stats : FrameStats) (late : List UInt64) : Prop where
  actions : stats.lateLatchActions = .ofNat (late.countP (· != 0))
  records : stats.lateLatchRecords = columnSum late
  frames : stats.framesWithLateLatch = .ofNat (late.countP (· != 0))

/-- The late records that are counted, frame by frame. -/
def RowSystem.lateDone (s : RowSystem) : List UInt64 :=
  lateOf s.policy s.observations ++
    if s.policy = .hfiorLateLatch ∧ .own .actLate ∉ s.todo then
      (s.locals.map (·.lateRecords)).toList
    else []

/-- The actions of the observations. -/
def RowSystem.actionsSeen (s : RowSystem) : UInt64 :=
  columnSum (s.observations.map (·.expensiveActions))

structure RowTotals (s : RowSystem) : Prop where
  frames : s.stats.frames = .ofNat s.rows.length
  observed : s.stats.Observed s.observations
  between : s.locals = none → s.stats.expensiveActions = s.actionsSeen
  during : ∀ l, s.locals = some l → l.actionsBefore = s.actionsSeen
  late : s.stats.LateCounted s.lateDone
  unwritten : Unwritten s → s.observations ≠ []

namespace FrameStats

variable {stats : FrameStats} {rows : List FrameObservation} {late : List UInt64}

theorem Observed.concat (h : stats.Observed rows) (row : FrameObservation) :
    (stats.observed row).Observed (rows ++ [row]) := by
  have hsampled : (row.records != 0 && row.newestTimestampNs != 0) = row.sampled := rfl
  constructor
  · show stats.inputConsumptions + 1 = _
    rw [h.consumptions, List.length_append, UInt64.ofNat_add]
    rfl
  · simp only [observed, hsampled, h.sampleAges, List.filter_append, List.map_append]
    cases hrow : row.sampled <;> simp [hrow]
  · simp only [observed, hsampled, h.legacyAges, List.filter_append, List.map_append]
    cases hrow : row.sampled <;> simp [hrow]
  · show stats.latchCosts ++ [row.latchCostNs] = _
    rw [h.latchCosts, List.map_append]
    rfl
  · show stats.startLateness ++ [row.startLatenessNs] = _
    rw [h.startLateness, List.map_append]
    rfl

/-- A frame without late records counts nothing. -/
theorem LateCounted.concat_zero (h : stats.LateCounted late) : stats.LateCounted (late ++ [0]) := by
  have hcount : (late ++ [0]).countP (· != 0) = late.countP (· != 0) := by
    simp [List.countP_append]
  have hsum : columnSum (late ++ [0]) = columnSum late := by
    rw [columnSum_concat, UInt64.add_zero]
  exact ⟨by rw [hcount, h.actions], by rw [hsum, h.records], by rw [hcount, h.frames]⟩

end FrameStats

theorem RowSystem.countLate_counted {s : RowSystem} {late : List UInt64} {n : UInt64}
    (h : s.stats.LateCounted late) (hne : n ≠ 0) :
    (s.countLate n).stats.LateCounted (late ++ [n]) := by
  have hcount : (late ++ [n]).countP (· != 0) = late.countP (· != 0) + 1 := by
    simp [List.countP_append, hne]
  constructor
  · show s.stats.lateLatchActions + 1 = _
    rw [hcount, h.actions, UInt64.ofNat_add]
    rfl
  · show s.stats.lateLatchRecords + n = _
    rw [columnSum_concat, h.records]
  · show s.stats.framesWithLateLatch + 1 = _
    rw [hcount, h.frames, UInt64.ofNat_add]
    rfl

/-! ## The steps -/

section
variable {config : FrameConfig} {s t : RowSystem} {l : FrameLocals} {labels : List RowLabel}

theorem lateOf_concat (policy : ClientPolicy) (rows : List FrameObservation)
    (row : FrameObservation) : lateOf policy (rows ++ [row]) =
      lateOf policy rows ++ if policy = .hfiorLateLatch then [row.lateRecords] else [] := by
  unfold lateOf
  split
  · rw [List.map_append]
    rfl
  · rfl

/-- Only a frame with a late latch has its counters. -/
theorem actLate_mem_rowProgram {policy : ClientPolicy} :
    .own .actLate ∈ rowProgram config policy ↔ policy = .hfiorLateLatch := by
  cases policy with
  | hfiorMulti =>
    simp only [rowProgram, rowBody]
    split <;> simp [own_mem_checks, own_not_mem_ackPostUse, rowFix, rowEnd,
      own_not_mem_ackPostFrame]
  | _ =>
    simp [rowProgram, rowBody, own_mem_checks, own_not_mem_ackPostUse,
      own_not_mem_finalRechecks, rowFix, rowEnd, own_not_mem_ackPostFrame]

/-- In front of the counters of the late latch. -/
theorem RowSystem.lateDone_of_mem
    (h : s.policy = .hfiorLateLatch → .own .actLate ∈ s.todo ∨ s.locals = none) :
    s.lateDone = lateOf s.policy s.observations := by
  unfold lateDone
  split
  · rename_i hbehind
    rw [(h hbehind.1).resolve_left hbehind.2]
    exact List.append_nil _
  · exact List.append_nil _

theorem RowSystem.lateDone_congr (hpolicy : t.policy = s.policy)
    (hobservations : t.observations = s.observations)
    (hmem : .own .actLate ∈ t.todo ↔ .own .actLate ∈ s.todo)
    (hlocals : t.locals.map (·.lateRecords) = s.locals.map (·.lateRecords)) :
    t.lateDone = s.lateDone := by
  simp only [lateDone, hpolicy, hobservations, hmem, hlocals]

/-- What an operation leaves that neither observes nor counts late records. -/
theorem RowSystem.perform_kept (hl : s.locals = some l) {op : OwnOp} (hobserve : op ≠ .observe)
    (hlate : op ≠ .actLate) (nowNs : UInt64) : ∃ l' n,
      s.perform l nowNs op = { s with locals := some l', stats.expensiveActions := n } ∧
        l'.lateRecords = l.lateRecords ∧ l'.actionsBefore = l.actionsBefore := by
  have hsame : s = { s with locals := some l } := by
    rw [← hl]
  cases op with
  | observe => exact absurd rfl hobserve
  | actLate => exact absurd rfl hlate
  | clock target => cases target <;> exact ⟨_, s.stats.expensiveActions, rfl, rfl, rfl⟩
  | actEach | act | actSecond =>
    simp only [perform]
    split
    · exact ⟨l, _, by rw [← hl]; rfl, rfl, rfl⟩
    · exact ⟨l, s.stats.expensiveActions, hsame, rfl, rfl⟩
  | writeFrame => exact ⟨l, s.stats.expensiveActions, hsame, rfl, rfl⟩
  | _ => exact ⟨_, s.stats.expensiveActions, rfl, rfl, rfl⟩

namespace RowTotals

/-- A step that observes nothing and counts no late records. -/
theorem keep (h : RowTotals s) (hrows : t.rows = s.rows)
    (hobservations : t.observations = s.observations)
    (hstats : t.stats = { s.stats with expensiveActions := t.stats.expensiveActions })
    (hdone : t.lateDone = s.lateDone) (hunwritten : Unwritten t → Unwritten s)
    (hbetween : t.locals = none → t.stats.expensiveActions = s.actionsSeen)
    (hduring : ∀ l, t.locals = some l → l.actionsBefore = s.actionsSeen) : RowTotals t := by
  have hseen : t.actionsSeen = s.actionsSeen := by
    rw [RowSystem.actionsSeen, RowSystem.actionsSeen, hobservations]
  refine ⟨?_, ?_, ?_, ?_, ?_, ?_⟩
  · rw [hstats, hrows]
    exact h.frames
  · rw [hstats, hobservations]
    exact ⟨h.observed.consumptions, h.observed.sampleAges, h.observed.legacyAges,
      h.observed.latchCosts, h.observed.startLateness⟩
  · rw [hseen]
    exact hbetween
  · rw [hseen]
    exact hduring
  · rw [hstats, hdone]
    exact ⟨h.late.actions, h.late.records, h.late.frames⟩
  · rw [hobservations]
    exact fun hun => h.unwritten (hunwritten hun)

theorem begin (h : RowTotals s) (hinv : RowInv config s) (hover : s.todo = [])
    {frames : FrameSystem} (hloop : frames.loop = s.frames.loop)
    (targetStartNs frameStartNs : UInt64) :
    RowTotals (s.begin config frames targetStartNs frameStartNs) := by
  have hpolicy : (s.begin config frames targetStartNs frameStartNs).policy = s.policy := by
    simp only [RowSystem.policy, RowSystem.ring, RowSystem.begin, hloop]
  have hnone := hinv.locals_eq_none (by rw [hover]; exact List.not_mem_nil)
  refine h.keep rfl rfl rfl ?_ ?_ (fun heq => by cases heq) ?_
  · rw [RowSystem.lateDone_of_mem fun _ => .inr hnone, RowSystem.lateDone_of_mem, hpolicy]
    · rfl
    · rw [hpolicy]
      exact fun hlatch => .inl (actLate_mem_rowProgram.2 hlatch)
  · rintro ⟨-, hnot⟩
    refine absurd ?_ hnot
    obtain ⟨front, hprogram, -, -⟩ := rowProgram_observe config s.policy
    show .own .observe ∈ rowProgram config s.policy
    rw [hprogram]
    simp
  · intro l hl
    obtain rfl := Option.some.inj hl
    exact h.between hnone

/-- A drain, a take or an ACK moves no counter. -/
theorem shared (h : RowTotals s) (hinv : RowInv config s) {next : RowOp} {todo : List RowOp}
    (htodo : s.todo = next :: todo) (hnotOwn : ∀ op, next ≠ .own op) {frames : FrameSystem}
    (hpolicy : frames.loop.system.client.policy = s.policy) :
    RowTotals { s with frames := frames, todo := todo, locals := s.gathered next } := by
  have hmem : ∀ op, .own op ∈ todo ↔ .own op ∈ s.todo := by
    intro op
    rw [htodo, List.mem_cons]
    exact ⟨.inr, fun hmem => hmem.resolve_left fun heq => hnotOwn op heq.symm⟩
  have hsuffix := hinv.suffix
  rw [htodo] at hsuffix
  refine h.keep rfl rfl rfl ?_ (fun hun => ⟨(hmem _).1 hun.1, fun hin => hun.2 ((hmem _).2 hin)⟩)
    ?_ ?_
  · cases next with
    | own op => exact absurd rfl (hnotOwn op)
    | drain | ack => exact RowSystem.lateDone_congr hpolicy rfl (hmem _) rfl
    | take late =>
      cases late with
      | false =>
        refine RowSystem.lateDone_congr hpolicy rfl (hmem _) ?_
        show (s.locals.map _).map _ = _
        rw [Option.map_map]
        rfl
      | true =>
        -- The counters of the late latch are still to come.
        have hlatch : s.policy = .hfiorLateLatch → .own .actLate ∈ todo := by
          intro hlatch
          rw [hlatch] at hsuffix
          exact (followed_actLate config).mem hsuffix rfl
        have hbehind : RowSystem.lateDone { s with
            frames := frames, todo := todo, locals := s.gathered (.take true) } =
              lateOf frames.loop.system.client.policy s.observations :=
          RowSystem.lateDone_of_mem fun heq => .inl (hlatch (hpolicy.symm.trans heq))
        rw [hbehind, hpolicy]
        exact (RowSystem.lateDone_of_mem fun heq => .inl ((hmem _).1 (hlatch heq))).symm
  · intro hnone
    have hnone : s.gathered next = none := hnone
    refine h.between ?_
    cases next with
    | take late => exact Option.map_eq_none_iff.1 hnone
    | _ => exact hnone
  · intro l hl
    have hl : s.gathered next = some l := hl
    cases next with
    | take late =>
      obtain ⟨l', hl', rfl⟩ := Option.map_eq_some_iff.1 hl
      rw [← h.during l' hl']
      cases late <;> rfl
    | _ => exact h.during l hl

/-- An operation that neither observes nor counts late records. -/
theorem own (h : RowTotals s) (hl : s.locals = some l) {op : OwnOp} {todo : List RowOp}
    (htodo : s.todo = .own op :: todo) (hobserve : op ≠ .observe) (hwrite : op ≠ .writeFrame)
    (hlate : op ≠ .actLate) (nowNs : UInt64) :
    RowTotals { s.perform l nowNs op with todo := todo } := by
  have hmem : ∀ op', op ≠ op' → (.own op' ∈ todo ↔ .own op' ∈ s.todo) :=
    fun op' hne => RowInv.own_mem htodo fun heq => hne (RowOp.own.inj heq)
  obtain ⟨l', n, hperform, hrecords, hbefore⟩ := RowSystem.perform_kept hl hobserve hlate nowNs
  rw [hperform]
  refine h.keep rfl rfl rfl ?_ (fun hun => ⟨(hmem _ hwrite).1 hun.1,
    fun hin => hun.2 ((hmem _ hobserve).2 hin)⟩) (fun heq => by cases heq) ?_
  · refine RowSystem.lateDone_congr rfl rfl (hmem _ hlate) ?_
    rw [hl]
    exact congrArg some hrecords
  · intro l'' hl''
    obtain rfl := Option.some.inj hl''
    exact hbefore.trans (h.during l hl)

/-- The counters of the late latch. -/
theorem actLate (h : RowTotals s) (hinv : RowInv config s) (hl : s.locals = some l)
    {todo : List RowOp} (htodo : s.todo = .own .actLate :: todo) (nowNs : UInt64) :
    RowTotals { s.perform l nowNs .actLate with todo := todo } := by
  have hsuffix := hinv.suffix
  rw [htodo] at hsuffix
  have hlatch : s.policy = .hfiorLateLatch :=
    actLate_mem_rowProgram.1 (hsuffix.subset List.mem_cons_self)
  have hnot : .own .actLate ∉ todo :=
    not_mem_of_count_le (count_act_le config (.inr (.inr rfl))) hsuffix
  have hcounted := h.late
  rw [RowSystem.lateDone_of_mem fun _ => .inl (by rw [htodo]; exact List.mem_cons_self)]
    at hcounted
  have hdone : ∀ stats : FrameStats, RowSystem.lateDone { s with todo := todo, stats := stats } =
      lateOf s.policy s.observations ++ [l.lateRecords] := by
    intro stats
    show _ ++ (if s.policy = .hfiorLateLatch ∧ .own .actLate ∉ todo then _ else _) = _
    rw [if_pos ⟨hlatch, hnot⟩, hl]
    rfl
  have hunwritten : ∀ stats : FrameStats,
      Unwritten { s with todo := todo, stats := stats } → Unwritten s := by
    intro stats hun
    have hwrite := RowInv.own_mem (x := .own .writeFrame) htodo (fun heq => by cases heq)
    have hobserve := RowInv.own_mem (x := .own .observe) htodo (fun heq => by cases heq)
    exact ⟨hwrite.1 hun.1, fun hin => hun.2 (hobserve.2 hin)⟩
  simp only [RowSystem.perform]
  split
  · rename_i hne
    refine ⟨h.frames, ⟨h.observed.consumptions, h.observed.sampleAges, h.observed.legacyAges,
      h.observed.latchCosts, h.observed.startLateness⟩, h.between, h.during, ?_,
      fun hun => h.unwritten (hunwritten _ hun)⟩
    exact hdone _ ▸ RowSystem.countLate_counted hcounted (bne_iff_ne.1 hne)
  · rename_i hzero
    have hzero : l.lateRecords = 0 := by simpa using hzero
    refine ⟨h.frames, h.observed, h.between, h.during, ?_,
      fun hun => h.unwritten (hunwritten _ hun)⟩
    have hcounted := hcounted.concat_zero
    rw [← hzero] at hcounted
    exact hdone _ ▸ hcounted

/-- The observation has the counters of its frame. -/
theorem observe (h : RowTotals s) (hinv : RowInv config s) (hl : s.locals = some l)
    {todo : List RowOp} (htodo : s.todo = .own .observe :: todo) :
    RowTotals { s.observe l with todo := todo } := by
  have hnot := (hinv.nothing_behind_observe htodo).2 .actLate (fun heq => by cases heq)
    (fun heq => by cases heq)
  have hdone : RowSystem.lateDone { s.observe l with todo := todo } = s.lateDone := by
    rw [RowSystem.lateDone_of_mem fun _ => .inr rfl]
    show lateOf s.policy (s.observations ++ [l.observation s.stats.expensiveActions]) = _
    rw [lateOf_concat, RowSystem.lateDone, hl]
    simp only [hnot, not_false_eq_true, and_true]
    rfl
  have hseen : RowSystem.actionsSeen { s.observe l with todo := todo } =
      s.stats.expensiveActions := by
    show columnSum ((s.observations ++ [l.observation s.stats.expensiveActions]).map
      (·.expensiveActions)) = _
    rw [List.map_append]
    refine (columnSum_concat _ _).trans ?_
    show s.actionsSeen + (s.stats.expensiveActions - l.actionsBefore) = _
    rw [← h.during l hl, UInt64.add_comm, UInt64.sub_add_cancel]
  refine ⟨h.frames, h.observed.concat _, fun _ => hseen.symm, ?_, ?_, ?_⟩
  · intro l' hl'
    cases hl'
  · rw [hdone]
    exact ⟨h.late.actions, h.late.records, h.late.frames⟩
  · exact fun _ => List.append_ne_nil_of_right_ne_nil _ (List.cons_ne_nil _ _)

theorem writeFrame (h : RowTotals s) (hinv : RowInv config s) {todo : List RowOp}
    (htodo : s.todo = .own .writeFrame :: todo) :
    RowTotals { s.writeFrame with todo := todo } := by
  have hsuffix := hinv.suffix
  rw [htodo] at hsuffix
  obtain rfl := rest_of_writeFrame hsuffix
  have hnotObserve : .own .observe ∉ s.todo := by
    rw [htodo]
    simp
  have hnone := hinv.locals_eq_none hnotObserve
  obtain ⟨row, hrow⟩ := List.getLast?_isSome.2
    (h.unwritten ⟨by rw [htodo]; exact List.mem_cons_self, hnotObserve⟩) |>
      Option.isSome_iff_exists.1
  refine ⟨?_, ⟨h.observed.consumptions, h.observed.sampleAges, h.observed.legacyAges,
    h.observed.latchCosts, h.observed.startLateness⟩, h.between, h.during, ?_, ?_⟩
  · show s.stats.frames + 1 = .ofNat (s.rows ++ s.observations.getLast?.toList).length
    rw [hrow, h.frames, List.length_append, UInt64.ofNat_add]
    rfl
  · have hdone : RowSystem.lateDone { s.writeFrame with todo := [] } = s.lateDone := by
      rw [RowSystem.lateDone_of_mem (s := s) fun _ => .inr hnone]
      exact RowSystem.lateDone_of_mem fun _ => .inr hnone
    rw [hdone]
    exact ⟨h.late.actions, h.late.records, h.late.frames⟩
  · intro hun
    cases hun.1

/-- Every step keeps the counters. -/
theorem step (h : RowTotals s) (hinv : RowInv config s) (hstep : RingRowStep config s t) :
    RowTotals t := by
  cases hstep with
  | begin hover hloop => exact h.begin hinv hover hloop _ _
  | other hop hring =>
    exact h.keep rfl rfl rfl (RowSystem.lateDone_congr hring.policy_eq rfl Iff.rfl rfl) id
      h.between h.during
  | @shared label op next todo frames htodo hop hnext hring =>
    refine h.shared hinv htodo (fun op heq => ?_) hring.policy_eq
    rw [heq] at hnext
    cases hnext
  | @own nowNs op todo l htodo hne hlocals =>
    by_cases hobserve : op = .observe
    · subst hobserve
      exact h.observe hinv hlocals htodo
    · by_cases hlate : op = .actLate
      · subst hlate
        exact h.actLate hinv hlocals htodo nowNs
      · exact h.own hlocals htodo hobserve hne hlate nowNs
  | writeFrame htodo => exact h.writeFrame hinv htodo

end RowTotals

theorem rowTotals_initial (s : RingSystem) : RowTotals (.initial s) := by
  have hlate : (RowSystem.initial s).lateDone = [] := by
    rw [RowSystem.lateDone_of_mem fun _ => .inr rfl, lateOf]
    exact ite_self _
  refine ⟨rfl, ⟨rfl, rfl, rfl, rfl, rfl⟩, fun _ => rfl, ?_, ?_, ?_⟩
  · intro l hl
    cases hl
  · rw [hlate]
    exact ⟨rfl, rfl, rfl⟩
  · intro hun
    cases hun.1

/-! ## The result -/

/-- For every ring policy and every configuration, in every interleaving of
the frames with the bridge and the ingress thread, with fewer than 2^64 - 1
publication attempts: between two frames the counters and the vectors for
`write_summary` are those of the rows of `frames.csv`. -/
theorem summary_of_rows (config : FrameConfig) (x : ClientStart)
    (hpolicy : x.policy ≠ .eagerThread) (hrun :
      (rowMachine config).run (.initial x.ringState) labels = some s)
    (hlt : s.ring.attempts.length + 1 < 2 ^ 64) (hover : s.todo = []) :
    s.stats = .ofRows x.policy s.rows := by
  obtain ⟨hinv, hsame, h⟩ := rowInv_run_keeps x hpolicy hrun hlt
    (P := fun u => u.policy = x.policy ∧ RowTotals u) ⟨rfl, rowTotals_initial _⟩
    (fun u v hu hstep hP => ⟨hstep.kept.1.trans hP.1, hP.2.step hu hstep⟩)
  have hnone := hinv.locals_eq_none (by rw [hover]; exact List.not_mem_nil)
  have hrows : s.rows = s.observations := hinv.written fun hun => by
    have hmem := hun.1
    rw [hover] at hmem
    cases hmem
  have hlate := h.late
  rw [RowSystem.lateDone_of_mem fun _ => .inr hnone, hsame, ← hrows] at hlate
  have hobserved := h.observed
  rw [← hrows] at hobserved
  have hactions := h.between hnone
  rw [RowSystem.actionsSeen, ← hrows] at hactions
  calc s.stats
    _ = ⟨s.stats.frames, s.stats.inputConsumptions, s.stats.expensiveActions,
          s.stats.lateLatchActions, s.stats.lateLatchRecords, s.stats.framesWithLateLatch,
          s.stats.sampleAges, s.stats.legacyAges, s.stats.latchCosts,
          s.stats.startLateness⟩ := rfl
    _ = .ofRows x.policy s.rows := by
      rw [h.frames, hobserved.consumptions, hactions, hlate.actions, hlate.records,
        hlate.frames, hobserved.sampleAges, hobserved.legacyAges, hobserved.latchCosts,
        hobserved.startLateness]
      rfl

end

theorem summary_of_rows_lateLatch :
    ∃ s, (rowMachine ⟨.critical, 1, 0⟩).run
        (.initial (ClientStart.fresh .hfiorLateLatch 64 rfl).ringState) lateLatchFrame = some s ∧
      s.rows.length = 1 ∧ s.stats.lateLatchRecords = 1 ∧
      s.stats = .ofRows .hfiorLateLatch s.rows := by
  have hrun : (rowMachine ⟨.critical, 1, 0⟩).run
      (.initial (ClientStart.fresh .hfiorLateLatch 64 rfl).ringState) lateLatchFrame =
        some _ := rfl
  exact ⟨_, hrun, rfl, rfl, summary_of_rows _ _ (by decide) hrun (by decide) rfl⟩

end Hfior
