import Hfior.RingClient.RowInvariant

/-!
# The rows are exact

The steps of `rowMachine`, one after the other: the begin of a frame, its
drains, takes and ACKs, its own operations, the observation and the row.  Then
`frame_rows_exact` is the induction over a run.
-/

namespace Hfior

open RingSystem

section
variable {config : FrameConfig} {s : RowSystem} {l : FrameLocals}

/-! ## What is in a program -/

variable (config) in
theorem any_rowProgram {policy : ClientPolicy} (hpolicy : policy ≠ .eagerThread) :
    (rowProgram config policy).any RowOp.isDrain = true ∧
      (rowProgram config policy).any RowOp.isTake = true ∧
      .own .act ∈ rowProgram config policy := by
  cases policy with
  | eagerThread => exact absurd rfl hpolicy
  | _ =>
    refine ⟨?_, ?_, ?_⟩ <;>
      simp [rowProgram, rowBody, checks, RowOp.isDrain, RowOp.isTake]

theorem actSecond_mem_rowProgram {policy : ClientPolicy} :
    .own .actSecond ∈ rowProgram config policy ↔ policy = .hfiorTwoStage := by
  cases policy with
  | hfiorMulti =>
    simp only [rowProgram, rowBody]
    split <;> simp [own_mem_checks, own_not_mem_ackPostUse, rowFix, rowEnd,
      own_not_mem_ackPostFrame]
  | _ =>
    simp [rowProgram, rowBody, own_mem_checks, own_not_mem_ackPostUse,
      own_not_mem_finalRechecks, rowFix, rowEnd, own_not_mem_ackPostFrame]

/-- Only the eager policy counts an action for each record. -/
theorem actEach_not_mem_rowProgram {policy : ClientPolicy} (hpolicy : policy ≠ .eagerThread) :
    .own .actEach ∉ rowProgram config policy := by
  cases policy with
  | eagerThread => exact absurd rfl hpolicy
  | hfiorMulti =>
    simp only [rowProgram, rowBody]
    split <;> simp [own_mem_checks, own_not_mem_ackPostUse, rowFix, rowEnd,
      own_not_mem_ackPostFrame]
  | _ =>
    simp [rowProgram, rowBody, own_mem_checks, own_not_mem_ackPostUse,
      own_not_mem_finalRechecks, rowFix, rowEnd, own_not_mem_ackPostFrame]

/-! ## The steps -/

namespace RowInv

theorem begin (h : RowInv config s) (hover : s.todo = []) {frames : FrameSystem}
    (hloop : frames.loop = s.frames.loop) (targetStartNs frameStartNs : UInt64)
    (hun : Unshadowed (s.begin config frames targetStartNs frameStartNs)) :
    RowInv config (s.begin config frames targetStartNs frameStartNs) := by
  have hring : (s.begin config frames targetStartNs frameStartNs).ring = s.ring :=
    congrArg LoopSystem.system hloop
  have hpolicy : (s.begin config frames targetStartNs frameStartNs).policy = s.policy := by
    rw [RowSystem.policy, hring, RowSystem.policy]
  have hnone := h.locals_eq_none (by rw [hover]; exact List.not_mem_nil)
  obtain ⟨hdrain, htake, hact⟩ := any_rowProgram config h.unshadowed.policy
  obtain ⟨front, hprogram, -, -⟩ := rowProgram_observe config s.policy
  have hobserve : .own .observe ∈ rowProgram config s.policy := by
    rw [hprogram]
    simp
  have hwritten := h.written fun hunwritten => by
    have hmem := hunwritten.1
    rw [hover] at hmem
    cases hmem
  have hhead : s.ring.head.toNat = s.ring.accepted.length := h.ring.ring.head
  refine ⟨?_, hun, ?_, ?_, ?_, ?_, ?_, ?_, ?_, ?_, ?_⟩
  · rw [hring]
    exact h.ring
  · rw [hpolicy]
    exact List.suffix_refl _
  · exact ⟨fun _ => hobserve, fun _ => rfl⟩
  · intro hlocals
    cases hlocals
  · intro l hl
    obtain rfl := Option.some.inj hl
    refine ⟨?_, ?_⟩
    · rw [hring]
      exact h.between hnone
    · rw [hring]
      show RecordSummary.empty.Of (slice s.ring.accepted
        (behindRows s.ring.start s.observations) (s.ring.start + s.ring.takenCount))
      rw [h.between hnone, slice_self]
      exact RecordSummary.of_empty
  · intro l hl
    obtain rfl := Option.some.inj hl
    constructor
    · refine ⟨?_, fun hdone => ?_, fun hdone => ?_⟩
      · rw [hring]
        exact hhead.le
      · exact absurd (hdrain.symm.trans hdone) (by decide)
      · exact absurd (htake.symm.trans hdone) (by decide)
    · intro hlate hmem
      rw [hpolicy] at hlate
      refine absurd ?_ hmem
      show .own .loadInitialHead ∈ rowProgram config s.policy
      rw [hlate]
      simp [rowProgram, rowBody]
    · intro hmem
      exact absurd (show .own .readLocalTail ∈ rowProgram config s.policy by
        simp [rowProgram]) hmem
    · exact Nat.zero_le _
    · exact Nat.zero_le _
    · exact Nat.zero_le _
  · intro l hl
    obtain rfl := Option.some.inj hl
    show s.stats.expensiveActions = s.stats.expensiveActions + ((if _ ∨ (0 : UInt64) = 0 then 0
      else 1) + (if _ ∧ _ ∧ (0 : UInt64) ≠ 0 then 1 else 0))
    rw [if_pos (.inr rfl), if_neg (fun hall => hall.2.2 rfl), UInt64.add_zero, UInt64.add_zero]
  · rw [hpolicy, hring]
    exact h.observed
  · intro hunwritten
    exact absurd hobserve hunwritten.2
  · intro _
    exact hwritten

/-- A step of the bridge or of the ingress thread, or inside of a drain. -/
theorem other (h : RowInv config s) {label : RingLabel} {frames : FrameSystem}
    (hop : (LoopLabel.system label).frameOp = none)
    (hring : RingStep s.ring label frames.loop.system)
    (hun : Unshadowed { s with frames := frames })
    (hlt : frames.loop.system.attempts.length + 1 < 2 ^ 64) :
    RowInv config { s with frames := frames } := by
  have hmoves : RingMoves s { s with frames := frames } := ringMoves_of h.ring hring
  have htaken : frames.loop.system.taken = s.ring.taken := by
    refine hring.taken_eq ?_
    rintro rfl
    cases hop
  exact h.quiet (h.ring.step hring hlt) hun hmoves (.inl htaken) rfl rfl (List.suffix_refl _)
    Iff.rfl Iff.rfl rfl
    (fun l hl => (h.gathered l hl).move hmoves h.ring htaken rfl rfl rfl rfl)
    (fun l hl => (h.positions l hl).move hmoves htaken .inl id id id rfl rfl rfl rfl)
    (fun l hl => (h.counted l hl).move hmoves.policy rfl Iff.rfl Iff.rfl rfl rfl rfl)

/-- A drain, of which the lock is the first step, or an ACK. -/
theorem drainOrAck (h : RowInv config s) {next : RowOp} {todo : List RowOp}
    (htodo : s.todo = next :: todo) (hnotTake : next.isTake = false)
    (hnotOwn : ∀ op, next ≠ .own op) {label : RingLabel} {frames : FrameSystem}
    (hring : RingStep s.ring label frames.loop.system)
    (htaken : frames.loop.system.taken = s.ring.taken)
    (hdrained : next.isDrain = true → ∀ position, DrainedPast position frames.loop.system)
    (hun : Unshadowed { s with frames := frames, todo := todo, locals := s.locals })
    (hlt : frames.loop.system.attempts.length + 1 < 2 ^ 64) :
    RowInv config { s with frames := frames, todo := todo, locals := s.locals } := by
  have hmoves : RingMoves s { s with frames := frames, todo := todo, locals := s.locals } :=
    ringMoves_of h.ring hring
  have hmem : ∀ op, .own op ∈ todo ↔ .own op ∈ s.todo := by
    intro op
    rw [htodo, List.mem_cons]
    exact ⟨.inr, fun hmem => hmem.resolve_left fun heq => hnotOwn op heq.symm⟩
  refine h.quiet (h.ring.step hring hlt) hun hmoves (.inl htaken) rfl rfl
    (by rw [htodo]; exact List.suffix_cons _ _) (hmem _) (hmem _) rfl
    (fun l hl => (h.gathered l hl).move hmoves h.ring htaken rfl rfl rfl rfl)
    (fun l hl => (h.positions l hl).move hmoves htaken ?_ ?_ ?_ ?_ rfl rfl rfl rfl)
    (fun l hl => (h.counted l hl).move hmoves.policy rfl (hmem _) (hmem _) rfl rfl rfl)
  · intro hnone
    rw [htodo, List.any_cons]
    cases hdrain : next.isDrain with
    | true => exact .inr (hdrained hdrain)
    | false => exact .inl hnone
  · intro hnone
    rw [htodo, List.any_cons, hnotTake]
    exact hnone
  · rw [hmem]
    exact id
  · rw [hmem]
    exact id

/-! ### The takes -/

section
variable {late : Bool} {todo : List RowOp} {frames : FrameSystem}

/-- Behind `take_pending`. -/
def taking (s : RowSystem) (late : Bool) (todo : List RowOp) (frames : FrameSystem) :
    RowSystem :=
  { s with frames := frames, todo := todo, locals := s.gathered (.take late) }

/-- What `take_pending` brings is counted. -/
theorem gathered_take (h : RowInv config s) (hl : Gathered s l)
    (hmoves : RingMoves s (taking s late todo frames))
    (hframes : frames.loop.system = s.ring.takePending) :
    Gathered (taking s late todo frames) (l.gather late s.ring.client.pending.records) := by
  obtain ⟨hconsumed, hsummary⟩ := hl
  have htakenCount : frames.loop.system.takenCount = s.ring.pushedCount := by
    rw [hframes, takenCount_takePending]
  have hcount : s.ring.pushedCount =
    s.ring.takenCount + s.ring.client.pending.records.length := rfl
  have hpushed := h.ring.pushedCount_le
  have hlocal := h.ring.client.local_le
  have hhead := h.ring.ring.head_lt
  have hbatch := h.ring.pending_eq
  generalize s.ring.client.pending.records = batch at hbatch hcount ⊢
  have hlength : (UInt64.ofNat batch.length).toNat = batch.length := by
    rw [UInt64.toNat_ofNat', Nat.mod_eq_of_lt (by omega)]
  refine ⟨?_, ?_⟩
  · rw [hmoves.start]
    show behindRows s.ring.start s.observations + (l.gather late batch).totalRecords.toNat +
      (l.gather late batch).lateRecords.toNat = s.ring.start + frames.loop.system.takenCount
    rw [htakenCount]
    cases late with
    | false =>
      show _ + (l.totalRecords + UInt64.ofNat batch.length).toNat + l.lateRecords.toNat = _
      rw [UInt64.toNat_add, hlength, Nat.mod_eq_of_lt (by omega)]
      omega
    | true =>
      show _ + l.totalRecords.toNat + (l.lateRecords + UInt64.ofNat batch.length).toNat = _
      rw [UInt64.toNat_add, hlength, Nat.mod_eq_of_lt (by omega)]
      omega
  · rw [hmoves.start]
    show (l.gather late batch).summary.Of (slice frames.loop.system.accepted
      (behindRows s.ring.start s.observations)
      (s.ring.start + frames.loop.system.takenCount))
    have haccepted : frames.loop.system.accepted = s.ring.accepted := by
      rw [hframes]
      rfl
    have hgather : (l.gather late batch).summary = summarizeRecords batch l.summary := by
      cases late <;> rfl
    rw [haccepted, htakenCount, hgather,
      ← slice_append_slice (j := s.ring.start + s.ring.takenCount) (by omega) (by omega),
      ← hbatch]
    exact hsummary.summarize batch

/-- Nothing that was drained in front of a take is left behind the last one. -/
theorem readsUpTo_take (h : RowInv config s) (htodo : s.todo = .take late :: todo)
    (hmoves : RingMoves s (taking s late todo frames)) (hruns : s.ring.frameRuns = true)
    (hframes : frames.loop.system = s.ring.takePending) {position : Nat}
    (hreads : ReadsUpTo position s) : ReadsUpTo position (taking s late todo frames) := by
  have hsuffix := h.suffix
  rw [htodo] at hsuffix
  have hdrained : todo.any RowOp.isDrain = false → DrainedPast position s.ring := by
    intro hnone
    refine hreads.drained ?_
    rw [htodo, List.any_cons]
    exact hnone
  refine ⟨hreads.committed.trans hmoves.grow.length_le,
    fun hnone => hmoves.drained _ hreads.committed (hdrained hnone), fun hnone => ?_⟩
  -- Behind the last take there is no drain left.
  have hnoDrain : todo.any RowOp.isDrain = false := by
    by_contra hany
    rw [Bool.not_eq_false] at hany
    have hfollowed := (followed_take config h.unshadowed.policy).suffix hsuffix
    exact absurd (hnone.symm.trans (hfollowed.2.any hany)) (by decide)
  rw [hmoves.start]
  show position ≤ s.ring.start + frames.loop.system.takenCount
  rw [hframes, takenCount_takePending]
  exact (hdrained hnoDrain).of_frameRuns hruns

theorem positions_take (h : RowInv config s) (hl : Positions s l)
    (htodo : s.todo = .take late :: todo) (hmoves : RingMoves s (taking s late todo frames))
    (hruns : s.ring.frameRuns = true) (hframes : frames.loop.system = s.ring.takePending)
    (batch : List Record) : Positions (taking s late todo frames) (l.gather late batch) := by
  have hsuffix := h.suffix
  rw [htodo] at hsuffix
  have hgrow := hmoves.grow.length_le
  have hresult : (l.gather late batch).result = l.result := by
    cases late <;> rfl
  constructor
  · rw [hresult]
    exact h.readsUpTo_take htodo hmoves hruns hframes hl.frameStart
  · rw [hmoves.policy, hresult]
    intro hpolicy hnot hne
    have hnot' : .own .loadInitialHead ∉ s.todo := by
      rw [htodo, List.mem_cons]
      exact fun hmem => hnot (hmem.resolve_left fun heq => by cases heq)
    obtain ⟨hne', hreads⟩ := hl.initialLatch hpolicy hnot' hne
    exact ⟨hne', h.readsUpTo_take htodo hmoves hruns hframes hreads⟩
  · exact fun hnot => absurd ((followed_readLocalTail config).mem hsuffix rfl) hnot
  · rw [hresult]
    exact hl.tail_le.trans hgrow
  · rw [hresult]
    exact hl.initialLatch_le.trans hgrow
  · rw [hresult]
    exact hl.finalLatch_le.trans hgrow

/-- The action of what a take brings is still to come. -/
theorem counted_take (h : RowInv config s) (hl : Counted s l)
    (htodo : s.todo = .take late :: todo) (hmoves : RingMoves s (taking s late todo frames))
    (batch : List Record) : Counted (taking s late todo frames) (l.gather late batch) := by
  have hsuffix := h.suffix
  rw [htodo] at hsuffix
  have hmem : ∀ op, .own op ∈ s.todo ↔ .own op ∈ todo := by
    intro op
    rw [htodo, List.mem_cons]
    exact ⟨fun hmem => hmem.resolve_left (fun heq => by cases heq), .inr⟩
  have hbefore : (l.gather late batch).actionsBefore = l.actionsBefore := by
    cases late <;> rfl
  unfold Counted at hl ⊢
  simp only [hmem] at hl
  rw [hmoves.policy, hbefore]
  cases late with
  | false =>
    have hact : .own .act ∈ todo := (followed_act config h.unshadowed.policy).mem hsuffix rfl
    rw [if_pos (.inl hact)] at hl ⊢
    exact hl
  | true =>
    have hnoSecond : ∀ records : UInt64, (if s.policy = .hfiorTwoStage ∧
        .own .actSecond ∉ todo ∧ records ≠ 0 then (1 : UInt64) else 0) = 0 := by
      intro records
      refine if_neg ?_
      rintro ⟨hstages, hnot, -⟩
      rw [hstages] at hsuffix
      exact hnot ((followed_actSecond config).mem hsuffix rfl)
    rw [hnoSecond] at hl
    show s.stats.expensiveActions = l.actionsBefore +
      ((if .own .act ∈ todo ∨ l.totalRecords = 0 then 0 else 1) +
        (if s.policy = .hfiorTwoStage ∧ .own .actSecond ∉ todo ∧
          l.lateRecords + UInt64.ofNat batch.length ≠ 0 then 1 else 0))
    rw [hnoSecond]
    exact hl

/-- What `take_pending` brings is counted, and nothing that was drained in
front of it is left. -/
theorem take (h : RowInv config s) (htodo : s.todo = .take late :: todo)
    (hruns : s.ring.frameRuns = true) (hframes : frames.loop.system = s.ring.takePending)
    (hun : Unshadowed (taking s late todo frames))
    (hlt : frames.loop.system.attempts.length + 1 < 2 ^ 64) :
    RowInv config (taking s late todo frames) := by
  have hring : RingStep s.ring .takePending frames.loop.system := by
    rw [hframes]
    exact .takePending hruns
  have hmoves : RingMoves s (taking s late todo frames) := ringMoves_of h.ring hring
  have hsuffix := h.suffix
  rw [htodo] at hsuffix
  have hmem : ∀ op, .own op ∈ todo ↔ .own op ∈ s.todo := by
    intro op
    rw [htodo, List.mem_cons]
    exact ⟨.inr, fun hmem => hmem.resolve_left (fun heq => by cases heq)⟩
  have hsome : s.locals.isSome = true :=
    h.observing.2 ((hmem _).1 (observe_mem_of_take hsuffix))
  refine h.quiet (h.ring.step hring hlt) hun hmoves (.inr hsome) rfl rfl
    (by rw [htodo]; exact List.suffix_cons _ _) (hmem _) (hmem _) ?_ ?_ ?_ ?_
  · show (s.locals.map _).isSome = s.locals.isSome
    rw [Option.isSome_map]
  · intro l' hl'
    obtain ⟨l, hl, rfl⟩ := Option.map_eq_some_iff.1 hl'
    exact h.gathered_take (h.gathered l hl) hmoves hframes
  · intro l' hl'
    obtain ⟨l, hl, rfl⟩ := Option.map_eq_some_iff.1 hl'
    exact h.positions_take (h.positions l hl) htodo hmoves hruns hframes _
  · intro l' hl'
    obtain ⟨l, hl, rfl⟩ := Option.map_eq_some_iff.1 hl'
    exact h.counted_take (h.counted l hl) htodo hmoves _

end

/-! ### The own operations -/

section
variable {op : OwnOp} {todo : List RowOp} {l' : FrameLocals} {stats : FrameStats}

/-- An operation of the frame thread on its own. -/
def after (s : RowSystem) (todo : List RowOp) (l' : FrameLocals) (stats : FrameStats) :
    RowSystem :=
  { s with todo := todo, locals := some l', stats := stats }

theorem own_mem {x : RowOp} (htodo : s.todo = .own op :: todo) (hne : .own op ≠ x) :
    x ∈ todo ↔ x ∈ s.todo := by
  rw [htodo, List.mem_cons]
  exact ⟨.inr, fun hmem => hmem.resolve_left (Ne.symm hne)⟩

theorem readsUpTo_own (htodo : s.todo = .own op :: todo) {position : Nat}
    (h : ReadsUpTo position s) : ReadsUpTo position (after s todo l' stats) := by
  refine h.move (ringMoves_refl rfl) rfl (fun hnone => .inl ?_) (fun hnone => ?_)
  · rw [htodo]
    exact hnone
  · rw [htodo]
    exact hnone

/-- An operation that loads no position. -/
theorem positions_own (h : Positions s l) (htodo : s.todo = .own op :: todo)
    (hne : op ≠ .loadInitialHead) (hne' : op ≠ .readLocalTail)
    (hstart : l'.result.headAtFrameStart = l.result.headAtFrameStart)
    (hinitial : l'.result.headAtInitialLatch = l.result.headAtInitialLatch)
    (hfinal : l'.result.headAtFinalLatch = l.result.headAtFinalLatch)
    (hlocal : l'.result.localTailAfter = l.result.localTailAfter) :
    Positions (after s todo l' stats) l' := by
  refine h.move (ringMoves_refl rfl) rfl (fun hnone => .inl ?_) (fun hnone => ?_) ?_ ?_
    hstart hinitial hfinal hlocal
  · rw [htodo]
    exact hnone
  · rw [htodo]
    exact hnone
  · exact fun hnot hmem => hnot
      ((own_mem htodo (fun heq => hne (RowOp.own.inj heq))).2 hmem)
  · exact fun hnot hmem => hnot
      ((own_mem htodo (fun heq => hne' (RowOp.own.inj heq))).2 hmem)

/-- The load of the first head.  In front of the late latch there is a drain
to come, and a take behind it. -/
theorem positions_loadInitialHead (h : RowInv config s) (hl : Positions s l)
    (htodo : s.todo = .own .loadInitialHead :: todo) :
    Positions (after s todo { l with result.headAtInitialLatch := s.ring.head } stats)
      { l with result.headAtInitialLatch := s.ring.head } := by
  have hhead : s.ring.head.toNat = s.ring.accepted.length := h.ring.ring.head
  have hsuffix := h.suffix
  rw [htodo] at hsuffix
  constructor
  · exact readsUpTo_own htodo hl.frameStart
  · intro hpolicy _ hne
    have hpolicy : s.policy = .hfiorLateLatch := hpolicy
    have hfollowed := ((followed_take config h.unshadowed.policy).suffix hsuffix).2
    rw [hpolicy] at hsuffix
    have hdrain := ((followed_drain_lateLatch config).suffix hsuffix).1 rfl
    refine ⟨?_, hhead.le, fun hnone => ?_, fun hnone => ?_⟩
    · intro hzero
      have hle := hl.frameStart.committed
      have hzero : s.ring.head = 0 := hzero
      rw [← hhead, hzero] at hle
      exact hne (UInt64.toNat_inj.1 (Nat.le_zero.1 hle))
    · exact absurd (hdrain.symm.trans hnone) (by decide)
    · exact absurd ((hfollowed.any hdrain).symm.trans hnone) (by decide)
  · intro hnot
    refine hl.localTail fun hmem => hnot ?_
    exact (own_mem htodo (fun heq => by cases heq)).2 hmem
  · exact hl.tail_le
  · exact hhead.le
  · exact hl.finalLatch_le

theorem positions_loadFinalHead (h : RowInv config s) (hl : Positions s l)
    (htodo : s.todo = .own .loadFinalHead :: todo) :
    Positions (after s todo { l with result.headAtFinalLatch := s.ring.head } stats)
      { l with result.headAtFinalLatch := s.ring.head } := by
  have hhead : s.ring.head.toNat = s.ring.accepted.length := h.ring.ring.head
  have hold : Positions (after s todo l stats) l :=
    positions_own hl htodo (fun heq => by cases heq) (fun heq => by cases heq) rfl rfl rfl rfl
  exact ⟨readsUpTo_own htodo hl.frameStart,
    fun hpolicy hnot hne => ⟨(hold.initialLatch hpolicy hnot hne).1,
      readsUpTo_own htodo (hl.initialLatch hpolicy
        (fun hmem => hnot ((own_mem htodo (fun heq => by cases heq)).2 hmem)) hne).2⟩,
    hold.localTail, hold.tail_le, hold.initialLatch_le, hhead.le⟩

/-- Behind the branches a head that is zero is loaded once more. -/
theorem positions_fixHeads (h : RowInv config s) (hl : Positions s l)
    (htodo : s.todo = .own .fixHeads :: todo) :
    Positions (after s todo (l.fixHeads s.ring.head) stats) (l.fixHeads s.ring.head) := by
  have hhead : s.ring.head.toNat ≤ s.ring.accepted.length := h.ring.ring.head.le
  have hmem : ∀ op, op ≠ .fixHeads → .own op ∉ todo → .own op ∉ s.todo :=
    fun op hne hnot hmem => hnot
      ((own_mem htodo (fun heq => hne (RowOp.own.inj heq).symm)).2 hmem)
  have hinitial : (if l.result.headAtInitialLatch == 0 then s.ring.head
      else l.result.headAtInitialLatch).toNat ≤ s.ring.accepted.length := by
    split
    · exact hhead
    · exact hl.initialLatch_le
  constructor
  · exact readsUpTo_own htodo hl.frameStart
  · intro hpolicy hnot hne
    obtain ⟨hne', hreads⟩ := hl.initialLatch hpolicy
      (hmem _ (fun heq => by cases heq) hnot) hne
    have hkeep : (l.fixHeads s.ring.head).result.headAtInitialLatch =
        l.result.headAtInitialLatch := by
      show (if l.result.headAtInitialLatch == 0 then _ else _) = _
      rw [if_neg (by simpa using hne')]
    rw [hkeep]
    exact ⟨hne', readsUpTo_own htodo hreads⟩
  · exact fun hnot => hl.localTail (hmem _ (fun heq => by cases heq) hnot)
  · exact hl.tail_le
  · exact hinitial
  · show UInt64.toNat (if l.result.headAtFinalLatch == 0 then _ else _) ≤
      s.ring.accepted.length
    split
    · exact hinitial
    · exact hl.finalLatch_le

theorem positions_readLocalTail (h : RowInv config s) (hl : Positions s l)
    (htodo : s.todo = .own .readLocalTail :: todo) :
    Positions (after s todo { l with result.localTailAfter := s.ring.client.localTail } stats)
      { l with result.localTailAfter := s.ring.client.localTail } :=
  ⟨readsUpTo_own htodo hl.frameStart,
    fun hpolicy hnot hne => by
      obtain ⟨hne', hreads⟩ := hl.initialLatch hpolicy
        (fun hmem => hnot ((own_mem htodo (fun heq => by cases heq)).2 hmem)) hne
      exact ⟨hne', readsUpTo_own htodo hreads⟩,
    fun _ => h.ring.takenCount_le, h.ring.client.local_le, hl.initialLatch_le,
    hl.finalLatch_le⟩

/-- An operation that counts no action. -/
theorem counted_own (h : Counted s l) (htodo : s.todo = .own op :: todo)
    (hact : op ≠ .act) (hsecond : op ≠ .actSecond)
    (hstats : stats.expensiveActions = s.stats.expensiveActions)
    (htotal : l'.totalRecords = l.totalRecords) (hlate : l'.lateRecords = l.lateRecords)
    (hbefore : l'.actionsBefore = l.actionsBefore) : Counted (after s todo l' stats) l' :=
  h.move rfl hstats (own_mem htodo (fun heq => hact (RowOp.own.inj heq)))
    (own_mem htodo (fun heq => hsecond (RowOp.own.inj heq))) htotal hlate hbefore

/-- What an operation leaves, if it neither observes nor writes. -/
theorem own (h : RowInv config s) (hl : s.locals = some l) (htodo : s.todo = .own op :: todo)
    (hobserve : op ≠ .observe) (hwrite : op ≠ .writeFrame)
    (htotal : l'.totalRecords = l.totalRecords) (hlate : l'.lateRecords = l.lateRecords)
    (hsummary : l'.summary = l.summary) (hpositions : Positions (after s todo l' stats) l')
    (hcounted : Counted (after s todo l' stats) l') : RowInv config (after s todo l' stats) := by
  have hmoves : RingMoves s (after s todo l' stats) := ringMoves_refl rfl
  have hany := h.unshadowed.todo
  rw [htodo, List.any_cons, Bool.or_eq_false_iff] at hany
  refine h.quiet h.ring ⟨h.unshadowed.policy, h.unshadowed.shadow, hany.2⟩ hmoves (.inl rfl)
    rfl rfl (by rw [htodo]; exact List.suffix_cons _ _)
    (own_mem htodo (fun heq => hobserve (RowOp.own.inj heq)))
    (own_mem htodo (fun heq => hwrite (RowOp.own.inj heq))) (by rw [hl]; rfl) ?_ ?_ ?_
  · intro l'' hl''
    obtain rfl := Option.some.inj hl''
    exact (h.gathered l hl).move hmoves h.ring rfl rfl htotal hlate hsummary
  · intro l'' hl''
    obtain rfl := Option.some.inj hl''
    exact hpositions
  · intro l'' hl''
    obtain rfl := Option.some.inj hl''
    exact hcounted

/-- The counter of the first action. -/
theorem counted_act (h : RowInv config s) (hl : Counted s l)
    (htodo : s.todo = .own .act :: todo)
    (hstats : stats.expensiveActions =
      s.stats.expensiveActions + (if l.totalRecords = 0 then 0 else 1)) :
    Counted (after s todo l stats) l := by
  have hsuffix := h.suffix
  rw [htodo] at hsuffix
  have hnot := not_mem_of_count_le (count_act_le config (.inl rfl)) hsuffix
  have hmem : RowOp.own .act ∈ s.todo := by
    rw [htodo]
    exact List.mem_cons_self
  have hsecond := own_mem (x := .own .actSecond) htodo (fun heq => by cases heq)
  unfold Counted at hl ⊢
  rw [if_pos (.inl hmem), UInt64.zero_add] at hl
  show stats.expensiveActions = l.actionsBefore + ((if .own .act ∈ todo ∨ l.totalRecords = 0
    then 0 else 1) + (if s.policy = .hfiorTwoStage ∧ .own .actSecond ∉ todo ∧ l.lateRecords ≠ 0
      then 1 else 0))
  simp only [hnot, false_or, hsecond]
  rw [hstats, hl, UInt64.add_assoc]
  exact congrArg (l.actionsBefore + ·) (UInt64.add_comm _ _)

/-- The counter of the second action. -/
theorem counted_actSecond (h : RowInv config s) (hl : Counted s l)
    (htodo : s.todo = .own .actSecond :: todo)
    (hstats : stats.expensiveActions =
      s.stats.expensiveActions + (if l.lateRecords = 0 then 0 else 1)) :
    Counted (after s todo l stats) l := by
  have hsuffix := h.suffix
  rw [htodo] at hsuffix
  have hpolicy : s.policy = .hfiorTwoStage :=
    actSecond_mem_rowProgram.1 (hsuffix.subset List.mem_cons_self)
  have hnot := not_mem_of_count_le (count_act_le config (.inr (.inl rfl))) hsuffix
  have hmem : RowOp.own .actSecond ∈ s.todo := by
    rw [htodo]
    exact List.mem_cons_self
  have hact := own_mem (x := .own .act) htodo (fun heq => by cases heq)
  unfold Counted at hl ⊢
  rw [if_neg (c := s.policy = _ ∧ _) (fun hall => hall.2.1 hmem), UInt64.add_zero] at hl
  show stats.expensiveActions = l.actionsBefore + ((if .own .act ∈ todo ∨ l.totalRecords = 0
    then 0 else 1) + (if s.policy = .hfiorTwoStage ∧ .own .actSecond ∉ todo ∧ l.lateRecords ≠ 0
      then 1 else 0))
  simp only [hact, hnot, hpolicy, not_false_eq_true, true_and, ne_eq, ite_not]
  rw [hstats, hl, UInt64.add_assoc]

/-- An operation that leaves the locals, where `stats` has its actions. -/
theorem own_stats (h : RowInv config s) (hl : s.locals = some l) (htodo : s.todo = .own op :: todo)
    (hobserve : op ≠ .observe) (hwrite : op ≠ .writeFrame) (hhead : op ≠ .loadInitialHead)
    (htail : op ≠ .readLocalTail) (hcounted : Counted (after s todo l stats) l) :
    RowInv config { s with todo := todo, stats := stats } := by
  have hown := h.own hl htodo hobserve hwrite rfl rfl rfl
    (positions_own (h.positions l hl) htodo hhead htail rfl rfl rfl rfl) hcounted
  rw [after, ← hl] at hown
  exact hown

/-- Every operation of the frame thread on its own, but the observation. -/
theorem perform (h : RowInv config s) (hl : s.locals = some l)
    (htodo : s.todo = .own op :: todo) (hobserve : op ≠ .observe) (hwrite : op ≠ .writeFrame)
    (nowNs : UInt64) : RowInv config { s.perform l nowNs op with todo := todo } := by
  have hpositions := h.positions l hl
  have hcounted := h.counted l hl
  cases op with
  | observe => exact absurd rfl hobserve
  | writeFrame => exact absurd rfl hwrite
  | clock target =>
    have hfields : (l.stamp nowNs target).result.headAtFrameStart = l.result.headAtFrameStart ∧
        (l.stamp nowNs target).result.headAtInitialLatch = l.result.headAtInitialLatch ∧
        (l.stamp nowNs target).result.headAtFinalLatch = l.result.headAtFinalLatch ∧
        (l.stamp nowNs target).result.localTailAfter = l.result.localTailAfter ∧
        (l.stamp nowNs target).totalRecords = l.totalRecords ∧
        (l.stamp nowNs target).lateRecords = l.lateRecords ∧
        (l.stamp nowNs target).summary = l.summary ∧
        (l.stamp nowNs target).actionsBefore = l.actionsBefore := by
      cases target <;> exact ⟨rfl, rfl, rfl, rfl, rfl, rfl, rfl, rfl⟩
    obtain ⟨hstart, hinitial, hfinal, hlocal, htotal, hlate, hsummary, hbefore⟩ := hfields
    exact h.own hl htodo hobserve hwrite htotal hlate hsummary
      (positions_own hpositions htodo (fun heq => by cases heq) (fun heq => by cases heq)
        hstart hinitial hfinal hlocal)
      (counted_own hcounted htodo (fun heq => by cases heq) (fun heq => by cases heq) rfl
        htotal hlate hbefore)
  | fixTimes | readChecks | loadDepthHead | loadDepthTail =>
    exact h.own hl htodo hobserve hwrite rfl rfl rfl
      (positions_own hpositions htodo (fun heq => by cases heq) (fun heq => by cases heq)
        rfl rfl rfl rfl)
      (counted_own hcounted htodo (fun heq => by cases heq) (fun heq => by cases heq) rfl
        rfl rfl rfl)
  | loadInitialHead =>
    exact h.own hl htodo hobserve hwrite rfl rfl rfl
      (positions_loadInitialHead h hpositions htodo)
      (counted_own hcounted htodo (fun heq => by cases heq) (fun heq => by cases heq) rfl
        rfl rfl rfl)
  | loadFinalHead =>
    exact h.own hl htodo hobserve hwrite rfl rfl rfl
      (positions_loadFinalHead h hpositions htodo)
      (counted_own hcounted htodo (fun heq => by cases heq) (fun heq => by cases heq) rfl
        rfl rfl rfl)
  | fixHeads =>
    exact h.own hl htodo hobserve hwrite rfl rfl rfl
      (positions_fixHeads h hpositions htodo)
      (counted_own hcounted htodo (fun heq => by cases heq) (fun heq => by cases heq) rfl
        rfl rfl rfl)
  | readLocalTail =>
    exact h.own hl htodo hobserve hwrite rfl rfl rfl
      (positions_readLocalTail h hpositions htodo)
      (counted_own hcounted htodo (fun heq => by cases heq) (fun heq => by cases heq) rfl
        rfl rfl rfl)
  | actEach =>
    have hsuffix := h.suffix
    rw [htodo] at hsuffix
    exact absurd (hsuffix.subset List.mem_cons_self)
      (actEach_not_mem_rowProgram h.unshadowed.policy)
  | actLate =>
    have hkeep : ∀ stats : FrameStats, stats.expensiveActions = s.stats.expensiveActions →
        Counted (after s todo l stats) l := fun stats hstats =>
      counted_own hcounted htodo (fun heq => by cases heq) (fun heq => by cases heq) hstats
        rfl rfl rfl
    simp only [RowSystem.perform]
    split
    · exact h.own_stats hl htodo hobserve hwrite (fun heq => by cases heq)
        (fun heq => by cases heq) (hkeep (s.countLate l.lateRecords).stats rfl)
    · exact h.own_stats hl htodo hobserve hwrite (fun heq => by cases heq)
        (fun heq => by cases heq) (hkeep s.stats rfl)
  | act =>
    simp only [RowSystem.perform]
    split
    · rename_i hsome
      refine h.own_stats hl htodo hobserve hwrite (fun heq => by cases heq)
        (fun heq => by cases heq)
        (counted_act h hcounted htodo ?_)
      rw [if_neg (by simpa using hsome)]
      rfl
    · rename_i hnone
      refine h.own_stats hl htodo hobserve hwrite (fun heq => by cases heq)
        (fun heq => by cases heq) (counted_act h hcounted htodo ?_)
      rw [if_pos (by simpa using hnone), UInt64.add_zero]
  | actSecond =>
    simp only [RowSystem.perform]
    split
    · rename_i hsome
      refine h.own_stats hl htodo hobserve hwrite (fun heq => by cases heq)
        (fun heq => by cases heq)
        (counted_actSecond h hcounted htodo ?_)
      rw [if_neg (by simpa using hsome)]
      rfl
    · rename_i hnone
      refine h.own_stats hl htodo hobserve hwrite (fun heq => by cases heq)
        (fun heq => by cases heq) (counted_actSecond h hcounted htodo ?_)
      rw [if_pos (by simpa using hnone), UInt64.add_zero]

/-- The records of the row are those that the frame has taken. -/
theorem behindRows_records (h : RowInv config s) (hl : Gathered s l) :
    behindRows s.ring.start s.observations + (l.totalRecords + l.lateRecords).toNat =
      s.ring.start + s.ring.takenCount := by
  have hconsumed := hl.consumed
  have hbound := h.ring.takenCount_le
  have hlocal := h.ring.client.local_le
  have hhead := h.ring.ring.head_lt
  rw [UInt64.toNat_add, Nat.mod_eq_of_lt (by omega)]
  omega

/-- With the observation only the ACK and the row are to do. -/
theorem nothing_behind_observe (h : RowInv config s) (htodo : s.todo = .own .observe :: todo) :
    s.todo.any RowOp.isTake = false ∧
      ∀ op, op ≠ .observe → op ≠ .writeFrame → .own op ∉ s.todo := by
  have hsuffix := h.suffix
  rw [htodo] at hsuffix
  rw [htodo, rest_of_observe hsuffix]
  constructor
  · simp [RowOp.isTake, any_ackPostFrame config (p := RowOp.isTake) rfl]
  · intro op hobserve hwrite
    simp [hobserve, hwrite, own_not_mem_ackPostFrame]

/-- The observation is a row of its own part. -/
theorem rowOf_observation (h : RowInv config s) (hl : s.locals = some l)
    (htodo : s.todo = .own .observe :: todo) :
    RowOf s.policy s.ring.accepted (behindRows s.ring.start s.observations)
      (l.observation s.stats.expensiveActions) := by
  have hpositions := h.positions l hl
  have hcounted := h.counted l hl
  have hbehind := h.behindRows_records (h.gathered l hl)
  obtain ⟨hnoTake, hnotOwn⟩ := h.nothing_behind_observe htodo
  constructor
  · show l.lateRecords ≤ l.totalRecords + l.lateRecords
    have hconsumed := (h.gathered l hl).consumed
    rw [UInt64.le_iff_toNat_le]
    omega
  · refine ⟨l.summary, ?_, rfl, rfl, ?_⟩
    · show l.summary.Of (slice s.ring.accepted _
        (_ + (l.totalRecords + l.lateRecords).toNat))
      rw [hbehind]
      exact (h.gathered l hl).summary
    · simp only [FrameLocals.observation, beq_iff_eq]
  · show l.result.headAtFrameStart.toNat ≤ _ + (l.totalRecords + l.lateRecords).toNat
    rw [hbehind]
    exact hpositions.frameStart.taken hnoTake
  · intro hpolicy hne
    show l.result.headAtInitialLatch.toNat ≤ _ + (l.totalRecords + l.lateRecords).toNat
    rw [hbehind]
    exact (hpositions.initialLatch hpolicy
      (hnotOwn _ (fun heq => by cases heq) (fun heq => by cases heq)) hne).2.taken hnoTake
  · show _ + (l.totalRecords + l.lateRecords).toNat ≤ l.result.localTailAfter.toNat
    rw [hbehind]
    exact hpositions.localTail
      (hnotOwn _ (fun heq => by cases heq) (fun heq => by cases heq))
  · exact hpositions.tail_le
  · exact hpositions.finalLatch_le
  · show s.stats.expensiveActions - l.actionsBefore =
      actionsOf s.policy (l.totalRecords + l.lateRecords - l.lateRecords) l.lateRecords
    have hact := hnotOwn .act (fun heq => by cases heq) (fun heq => by cases heq)
    have hsecond := hnotOwn .actSecond (fun heq => by cases heq) (fun heq => by cases heq)
    unfold Counted at hcounted
    simp only [hact, hsecond, false_or, not_false_eq_true, true_and] at hcounted
    rw [hcounted, UInt64.add_comm l.actionsBefore, UInt64.add_sub_cancel,
      UInt64.add_sub_cancel]
    rfl

/-- The end of `run_frame_policy`. -/
theorem observe (h : RowInv config s) (hl : s.locals = some l)
    (htodo : s.todo = .own .observe :: todo) :
    RowInv config { s.observe l with todo := todo } := by
  have hsuffix := h.suffix
  rw [htodo] at hsuffix
  have hrest := rest_of_observe hsuffix
  have hnotObserve : .own .observe ∉ todo := by
    rw [hrest]
    simp [own_not_mem_ackPostFrame]
  have hwritten := h.written fun hunwritten => hunwritten.2 (by
    rw [htodo]
    exact List.mem_cons_self)
  have hany := h.unshadowed.todo
  rw [htodo, List.any_cons, Bool.or_eq_false_iff] at hany
  refine ⟨h.ring, ⟨h.unshadowed.policy, h.unshadowed.shadow, hany.2⟩, ?_, ?_, ?_, ?_, ?_, ?_,
    h.observed.concat (h.rowOf_observation hl htodo), ?_, ?_⟩
  · exact (List.suffix_cons _ _).trans hsuffix
  · exact ⟨fun hsome => (by cases hsome), fun hmem => absurd hmem hnotObserve⟩
  · intro _
    show behindRows s.ring.start (s.observations ++ [l.observation s.stats.expensiveActions]) = _
    rw [behindRows_concat]
    exact h.behindRows_records (h.gathered l hl)
  · intro l' hl'
    cases hl'
  · intro l' hl'
    cases hl'
  · intro l' hl'
    cases hl'
  · intro _
    show s.rows ++ (s.observations ++ [_]).getLast?.toList = s.observations ++ [_]
    rw [List.getLast?_concat, hwritten]
    rfl
  · intro hnot
    refine absurd ⟨?_, hnotObserve⟩ hnot
    show .own .writeFrame ∈ todo
    rw [hrest]
    simp

/-- The row of the frame. -/
theorem writeFrame (h : RowInv config s) (htodo : s.todo = .own .writeFrame :: todo) :
    RowInv config { s.writeFrame with todo := todo } := by
  have hsuffix := h.suffix
  rw [htodo] at hsuffix
  obtain rfl := rest_of_writeFrame hsuffix
  have hnotObserve : .own .observe ∉ s.todo := by
    rw [htodo]
    simp
  have hnone := h.locals_eq_none hnotObserve
  have hrows := h.unwritten ⟨by rw [htodo]; exact List.mem_cons_self, hnotObserve⟩
  refine ⟨h.ring, ⟨h.unshadowed.policy, h.unshadowed.shadow, rfl⟩, List.nil_suffix, ?_,
    h.between, ?_, ?_, ?_, h.observed, ?_, fun _ => hrows⟩
  · show s.locals.isSome = true ↔ _
    rw [hnone]
    exact ⟨fun hsome => (by cases hsome), fun hmem => (by cases hmem)⟩
  · intro l hl
    rw [show s.locals = some l from hl] at hnone
    cases hnone
  · intro l hl
    rw [show s.locals = some l from hl] at hnone
    cases hnone
  · intro l hl
    rw [show s.locals = some l from hl] at hnone
    cases hnone
  · intro hunwritten
    cases hunwritten.1

end

end RowInv

/-! ## Runs -/

theorem label_of_drain {label : RingLabel} {reason : ReceiptReason} {shadow acknowledgeNow : Bool}
    (h : (LoopLabel.system label).frameOp = some (.drain reason shadow acknowledgeNow)) :
    label = .lockFrame reason acknowledgeNow := by
  cases label with
  | lockFrame reason' acknowledgeNow' =>
    cases h
    rfl
  | _ => cases h

theorem label_of_takePending {label : RingLabel}
    (h : (LoopLabel.system label).frameOp = some .takePending) : label = .takePending := by
  cases label with
  | takePending => rfl
  | _ => cases h

theorem label_of_ack {label : RingLabel} (h : (LoopLabel.system label).frameOp = some .ack) :
    ∃ send, label = .frameAck send := by
  cases label with
  | frameAck send => exact ⟨send, rfl⟩
  | _ => cases h

variable {t : RowSystem}

theorem RingRowStep.kept (hstep : RingRowStep config s t) :
    t.policy = s.policy ∧ t.ring.start = s.ring.start := by
  cases hstep with
  | begin hover hloop =>
    simp only [RowSystem.policy, RowSystem.ring, RowSystem.begin, hloop, and_self]
  | other hop hring => exact ⟨hring.policy_eq, hring.start_eq⟩
  | shared htodo hop hnext hring => exact ⟨hring.policy_eq, hring.start_eq⟩
  | @own nowNs op todo l htodo hne hlocals =>
    show (s.perform l nowNs op).policy = _ ∧ (s.perform l nowNs op).ring.start = _
    simp only [RowSystem.policy, RowSystem.ring, RowSystem.perform_frames, and_self]
  | writeFrame htodo => exact ⟨rfl, rfl⟩

/-- Every step of a ring policy keeps the invariant. -/
theorem RowInv.step (h : RowInv config s) (hstep : RingRowStep config s t) (hun : Unshadowed t)
    (hlt : t.ring.attempts.length + 1 < 2 ^ 64) : RowInv config t := by
  cases hstep with
  | begin hover hloop => exact h.begin hover hloop _ _ hun
  | other hop hring => exact h.other hop hring hun hlt
  | @shared label op next todo frames htodo hop hnext hring =>
    cases next with
    | drain reason shadow acknowledgeNow =>
      obtain rfl := Option.some.inj hnext
      obtain rfl := label_of_drain hop
      have hsystem : frames.loop.system = s.ring.lock .frame reason acknowledgeNow := by
        generalize frames.loop.system = system at hring
        cases hring
        rfl
      refine h.drainOrAck htodo rfl (fun op heq => by cases heq) hring (by rw [hsystem]; rfl) ?_
        hun hlt
      intro _ position
      rw [hsystem]
      exact drainedPast_lock s.ring reason acknowledgeNow position
    | take late =>
      obtain rfl := Option.some.inj hnext
      obtain rfl := label_of_takePending hop
      have hsystem : s.ring.frameRuns = true ∧ frames.loop.system = s.ring.takePending := by
        generalize frames.loop.system = system at hring
        cases hring with
        | takePending hruns => exact ⟨hruns, rfl⟩
      exact h.take htodo hsystem.1 hsystem.2 hun hlt
    | ack =>
      obtain rfl := Option.some.inj hnext
      obtain ⟨send, rfl⟩ := label_of_ack hop
      exact h.drainOrAck htodo rfl (fun op heq => by cases heq) hring
        (hring.taken_eq (fun heq => by cases heq)) (fun hdrain => by cases hdrain) hun hlt
    | own op => cases hnext
  | @own nowNs op todo l htodo hne hlocals =>
    by_cases hobserve : op = .observe
    · subst hobserve
      exact h.observe hlocals htodo
    · exact h.perform hlocals htodo hobserve hne nowNs
  | writeFrame htodo => exact h.writeFrame htodo

theorem rowInv_initial (x : ClientStart) (hpolicy : x.policy ≠ .eagerThread)
    (hlt : x.attempts.length + 1 < 2 ^ 64) : RowInv config (.initial x.ringState) := by
  refine ⟨x.ringInv hlt, ⟨hpolicy, rfl, rfl⟩, List.nil_suffix, ?_, fun _ => rfl, ?_, ?_, ?_,
    trivial, ?_, fun _ => rfl⟩
  · exact ⟨fun hsome => (by cases hsome), fun hmem => (by cases hmem)⟩
  · intro l hl
    cases hl
  · intro l hl
    cases hl
  · intro l hl
    cases hl
  · intro hunwritten
    cases hunwritten.1

theorem RowStep.attempts_le {label : RowLabel} (hstep : RowStep config s label t) :
    s.ring.attempts.length + 1 ≤ t.ring.attempts.length + 1 := by
  cases hstep with
  | begin hover hframe => exact (frameStep_cases hframe).attempts_le
  | other hop hreads hframe => exact (frameStep_cases hframe).attempts_le
  | shared hop htodo hnext hframe => exact (frameStep_cases hframe).attempts_le
  | @own nowNs op todo l htodo hne hlocals hruns =>
    show _ ≤ (s.perform l nowNs op).frames.loop.system.attempts.length + 1
    rw [RowSystem.perform_frames]
    exact le_rfl
  | writeFrame htodo hruns => exact le_rfl

/-- What every step of a ring policy keeps holds along a run, with the
invariant. -/
theorem rowInv_run_keeps (x : ClientStart) (hpolicy : x.policy ≠ .eagerThread)
    {labels : List RowLabel}
    (hrun : (rowMachine config).run (.initial x.ringState) labels = some s)
    (hlt : s.ring.attempts.length + 1 < 2 ^ 64) {P : RowSystem → Prop}
    (hinit : P (.initial x.ringState))
    (hkeep : ∀ u v, RowInv config u → RingRowStep config u v → P u → P v) :
    RowInv config s ∧ P s := by
  have hmono : ∀ u label v, (rowMachine config).step u label = some v →
      u.ring.attempts.length + 1 ≤ v.ring.attempts.length + 1 :=
    fun _ _ _ hstep => (rowStep_cases hstep).attempts_le
  have hstart : x.attempts.length + 1 ≤ s.ring.attempts.length + 1 :=
    Machine.run_mono (μ := fun u : RowSystem => u.ring.attempts.length + 1) hmono hrun
  refine Machine.run_invariant_below (fun u : RowSystem => RowInv config u ∧ P u)
      (fun u => u.ring.attempts.length + 1) hmono ?_
      ⟨rowInv_initial x hpolicy (Nat.lt_of_le_of_lt hstart hlt), hinit⟩ hrun hlt
  rintro u label v ⟨hu, hP⟩ hv hstep
  obtain ⟨hring, hun⟩ := ringRowStep_of hu.unshadowed (rowStep_cases hstep)
  exact ⟨hu.step hring hun hv, hkeep u v hu hring hP⟩

theorem rowInv_run (x : ClientStart) (hpolicy : x.policy ≠ .eagerThread) {labels : List RowLabel}
    (hrun : (rowMachine config).run (.initial x.ringState) labels = some s)
    (hlt : s.ring.attempts.length + 1 < 2 ^ 64) :
    RowInv config s ∧ s.policy = x.policy ∧ s.ring.start = x.position.toNat :=
  rowInv_run_keeps x hpolicy hrun hlt
    (P := fun u => u.policy = x.policy ∧ u.ring.start = x.position.toNat) ⟨rfl, rfl⟩
    fun _ _ _ hstep hP => ⟨hstep.kept.1.trans hP.1, hstep.kept.2.trans hP.2⟩

/-! ## The result -/

/-- One row among the rows. -/
theorem RowsOf.row {policy : ClientPolicy} {accepted : List Record} {first : Nat}
    {before behind : List FrameObservation} {row : FrameObservation}
    (h : RowsOf policy accepted first (before ++ row :: behind)) :
    RowOf policy accepted (behindRows first before) row := by
  induction before generalizing first with
  | nil => exact h.1
  | cons x before ih =>
    have hrow := ih h.2
    have hsame : behindRows (first + x.records.toNat) before = behindRows first (x :: before) := by
      simp [behindRows, Nat.add_assoc]
    rw [hsame] at hrow
    exact hrow

/-- In a list in order, the last entry is the greatest. -/
theorem le_getLast_of_pairwise {l : List Record} {R : Record → Record → Prop}
    (hrefl : ∀ x, R x x) (h : l.Pairwise R) {last : Record} (hlast : l.getLast? = some last) :
    ∀ x ∈ l, R x last := by
  obtain ⟨front, rfl⟩ := List.getLast?_eq_some_iff.1 hlast
  intro x hx
  rcases List.mem_append.1 hx with hx | hx
  · exact (List.pairwise_append.1 h).2.2 x hx last (List.mem_singleton_self _)
  · rw [List.mem_singleton.1 hx]
    exact hrefl last

/-- For every ring policy and every configuration, in every interleaving of
the frames with the bridge and the ingress thread, with fewer than 2^64 - 1
publication attempts: each row of `frames.csv` tells its own part of the
accepted records, and between two frames the parts are all records that were
taken.  If the records are accepted in the order of their timestamps, the
newest sequence of a row is that of the last record of its part. -/
theorem frame_rows_exact (config : FrameConfig) (x : ClientStart)
    (hpolicy : x.policy ≠ .eagerThread) {labels : List RowLabel} {s : RowSystem}
    (hrun : (rowMachine config).run (.initial x.ringState) labels = some s)
    (hlt : s.ring.attempts.length + 1 < 2 ^ 64) :
    (∀ before row behind, s.rows = before ++ row :: behind →
      RowOf x.policy s.ring.accepted (behindRows x.position.toNat before) row ∧
      ((s.ring.accepted.Pairwise fun a b => a.timestampNs ≤ b.timestampNs) → ∀ last,
        (slice s.ring.accepted (behindRows x.position.toNat before)
          (behindRows x.position.toNat before + row.records.toNat)).getLast? = some last →
        row.newestSequence = last.sequence)) ∧
    (s.todo = [] → s.ring.taken.flatten = slice s.ring.accepted x.position.toNat
      (behindRows x.position.toNat s.rows)) := by
  obtain ⟨h, hsame, hfirst⟩ := rowInv_run x hpolicy hrun hlt
  have hrows : s.rows <+: s.observations := by
    by_cases hunwritten : Unwritten s
    · exact ⟨_, h.unwritten hunwritten⟩
    · rw [h.written hunwritten]
  have hobserved := h.observed.of_prefix hrows
  rw [hsame, hfirst] at hobserved
  constructor
  · intro before row behind heq
    rw [heq] at hobserved
    have hrow := hobserved.row
    refine ⟨hrow, ?_⟩
    intro hsorted last hlast
    obtain ⟨summary, hsummary, -, hsequence, -⟩ := hrow.summary
    have hsub := (List.drop_sublist (behindRows x.position.toNat before) _).trans
      (List.take_sublist (behindRows x.position.toNat before + row.records.toNat)
        s.ring.accepted)
    have hnumbers := h.ring.numbered.accepted_increasing.sublist hsub
    have hpositive := h.ring.numbered.accepted_pos last
      (hsub.subset (List.mem_of_getLast? hlast))
    rw [hsequence]
    refine (hsummary.newest_last hlast hpositive fun record hrecord => ⟨?_, ?_⟩).2
    · exact le_getLast_of_pairwise (fun x => UInt64.le_refl _) (hsorted.sublist hsub) hlast
        record hrecord
    · exact le_getLast_of_pairwise (fun x => UInt64.le_refl _)
        (hnumbers.imp fun hlt => UInt64.le_of_lt (UInt64.lt_iff_toNat_lt.2 hlt)) hlast
        record hrecord
  · intro hover
    have hnotObserve : .own .observe ∉ s.todo := by
      rw [hover]
      exact List.not_mem_nil
    have hnone := h.locals_eq_none hnotObserve
    have hwritten := h.written fun hunwritten => by
      have hmem := hunwritten.1
      rw [hover] at hmem
      cases hmem
    have hbehind := h.between hnone
    have hpushed := h.ring.client.pushed
    rw [List.append_assoc] at hpushed
    have htaken := eq_slice_of_append h.ring.client.start_le h.ring.client.local_le hpushed
    rw [hfirst] at hbehind htaken
    rw [hwritten, hbehind]
    exact htaken

end

/-- A drain of the frame thread that finds a record. -/
def drainOne (reason : ReceiptReason) (acknowledgeNow : Bool) : List RowLabel :=
  [.lockFrame reason acknowledgeNow, .load, .copy, .account 0, .push, .count,
    .finish .done].map fun label => .loop (.system label)

/-- A publication of a motion. -/
def publishMotion : List RowLabel :=
  [.publish 0 0 (blankRecord 0 HFIOR_RECORD_MOTION), .announce .done .done .done].map
    fun label => .loop (.system label)

/-- A frame with the late latch.  A second record comes behind the first
latch. -/
def lateLatchFrame : List RowLabel :=
  publishMotion ++ [.begin 0 10, .own 20] ++ drainOne .frameRing false ++
    [.own 0, .loop (.system .takePending), .own 30, .own 0] ++ publishMotion ++
    [.own 40] ++ drainOne .finalRing true ++ [.loop (.system .takePending), .own 50] ++
    List.replicate 11 (.own 60)

theorem frame_rows_exact_lateLatch :
    ∃ s row, (rowMachine ⟨.critical, 1, 0⟩).run
        (.initial (ClientStart.fresh .hfiorLateLatch 64 rfl).ringState) lateLatchFrame = some s ∧
      s.rows = [row] ∧ row.records = 2 ∧ row.lateRecords = 1 ∧ row.expensiveActions = 1 ∧
      RowOf .hfiorLateLatch s.ring.accepted 0 row ∧ row.newestSequence = 2 := by
  have hrun : (rowMachine ⟨.critical, 1, 0⟩).run
      (.initial (ClientStart.fresh .hfiorLateLatch 64 rfl).ringState) lateLatchFrame =
        some _ := rfl
  have hrows := (frame_rows_exact _ _ (by decide) hrun (by decide)).1 [] _ [] rfl
  exact ⟨_, _, hrun, rfl, rfl, rfl, rfl, hrows.1, hrows.2 (by decide) _ rfl⟩

end Hfior
