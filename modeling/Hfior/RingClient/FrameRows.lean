import Hfior.Client.Observation
import Hfior.RingClient.FramePolicy

/-!
# What a frame writes down

`run_frame_policy` with everything that it observes: between the operations of
`frame` on the shared data of the client it reads the clock, loads the shared
positions, and counts its actions.  `rowProgram` is the list of these
operations for every policy, and the operations on the shared data among them
are those of `frame` (`rowProgram_frameOps`).

`rowMachine` runs the list between the steps of the bridge and of the ingress
thread.  A step on the shared data is a step of `frameMachine`
(`rowMachine_frames`).
-/

namespace Hfior

/-! ## The operations -/

/-- Where a clock read goes. -/
inductive ClockUse where
  /-- `legacy_measurement_ns`, which is the begin of the latch as well. -/
  | legacy
  | latchBegin
  | latchEnd
  /-- `latch_end_ns`, which is the time of use as well. -/
  | latchEndUse
  | use
deriving DecidableEq, Repr

/-- What the frame thread does on its own. -/
inductive OwnOp where
  | clock (target : ClockUse)
  | loadInitialHead
  | loadFinalHead
  /-- An expensive action for each record. -/
  | actEach
  /-- One expensive action, if there are records. -/
  | act
  /-- One expensive action, if there are late records. -/
  | actSecond
  /-- The counters of the late latch. -/
  | actLate
  /-- The heads that are still zero. -/
  | fixHeads
  /-- The times that are still zero. -/
  | fixTimes
  | readLocalTail
  | readChecks
  | loadDepthHead
  | loadDepthTail
  /-- The end of `run_frame_policy`. -/
  | observe
  /-- `write_frame`. -/
  | writeFrame
deriving DecidableEq, Repr

inductive RowOp where
  /-- A call of `drain_ring`. -/
  | drain (reason : ReceiptReason) (shadow acknowledgeNow : Bool)
  /-- `take_pending`, into the total or into the late records. -/
  | take (late : Bool)
  | ack
  | own (op : OwnOp)
deriving DecidableEq, Repr

/-- The operation on the shared data. -/
def RowOp.frameOp : RowOp → Option FrameOp
  | .drain reason shadow acknowledgeNow => some (.drain reason shadow acknowledgeNow)
  | .take _ => some .takePending
  | .ack => some .ack
  | .own _ => none

/-! ## The frames -/

def ackPostUse (config : FrameConfig) : List RowOp :=
  if config.ackPlacement = .postUse then [.ack] else []

def ackPostFrame (config : FrameConfig) : List RowOp :=
  if config.ackPlacement = .postFrame then [.ack] else []

/-- The checks of a frame.  The time in front of the last one is kept. -/
def checks (config : FrameConfig) : List RowOp :=
  let checks := if config.checksPerFrame ≠ 0 then config.checksPerFrame else 1
  List.replicate (checks.toNat - 1) (.drain .frameRing false false) ++
    [.own (.clock .legacy), .drain .frameRing false false]

/-- The rechecks behind the late latch. -/
def finalRechecks (config : FrameConfig) : List RowOp :=
  (List.range config.finalRechecks.toNat).flatMap fun recheck =>
    [.drain .finalRing false
      (recheck + 1 == config.finalRechecks.toNat && ackDuringDrain config), .take true]

/-- `run_frame_policy`, up to the end of its branches. -/
def rowBody (config : FrameConfig) : ClientPolicy → List RowOp
  | .eagerThread =>
    [.own (.clock .legacy), .take false, .own (.clock .latchEndUse), .own .actEach,
      .drain .frameRing true true]
  | .hfiorCriticalAck =>
    [.own (.clock .legacy), .drain .frameRing false (ackDuringDrain config),
      .own .loadInitialHead, .take false, .own (.clock .latchEndUse), .own .act] ++
      ackPostUse config
  | .hfiorLate | .hfiorSpin =>
    [.own (.clock .legacy), .drain .finalRing false (ackDuringDrain config),
      .own .loadInitialHead, .take false, .own (.clock .latchEnd), .own .act] ++
      ackPostUse config ++ [.own (.clock .use)]
  | .hfiorMulti =>
    checks config ++
      [.own .loadInitialHead, .take false, .own (.clock .latchEnd), .own .act] ++
      (if ackDuringDrain config then [.ack] else []) ++
      [.own .loadFinalHead, .own (.clock .use)] ++ ackPostUse config
  | .hfiorLateLatch =>
    checks config ++
      [.own .loadInitialHead, .take false, .own (.clock .latchEnd), .own .act,
        .own (.clock .latchBegin), .drain .finalRing false (ackDuringDrain config),
        .take true] ++
      finalRechecks config ++
      [.own (.clock .latchEnd), .own .actLate, .own .loadFinalHead, .own (.clock .use)] ++
      ackPostUse config
  | .hfiorTwoStage =>
    [.own (.clock .legacy), .drain .frameRing false false, .take false, .own .act,
      .drain .finalRing false (ackDuringDrain config), .take true, .own .actSecond,
      .own (.clock .latchEndUse), .own .loadFinalHead] ++ ackPostUse config

/-- The rest of `run_frame_policy`, up to the local tail. -/
def rowFix : List RowOp := [.own .fixHeads, .own .fixTimes]

/-- The rest of the frame behind its last read of the local tail. -/
def rowEnd (config : FrameConfig) : List RowOp :=
  [.own .readChecks, .own .loadDepthHead, .own .loadDepthTail, .own .observe] ++
    ackPostFrame config ++ [.own .writeFrame]

/-- One frame of the main loop. -/
def rowProgram (config : FrameConfig) (policy : ClientPolicy) : List RowOp :=
  rowBody config policy ++ rowFix ++ .own .readLocalTail :: rowEnd config

/-! ### The shared data -/

theorem frameOps_ackPostUse (config : FrameConfig) :
    (ackPostUse config).filterMap RowOp.frameOp = maybeAckPostUse config := by
  unfold ackPostUse maybeAckPostUse
  split <;> rfl

theorem frameOps_ackPostFrame (config : FrameConfig) :
    (ackPostFrame config).filterMap RowOp.frameOp = maybeAckPostFrame config := by
  unfold ackPostFrame maybeAckPostFrame
  split <;> rfl

theorem frameOps_checks (config : FrameConfig) :
    (checks config).filterMap RowOp.frameOp = prechecks config := by
  simp only [checks, prechecks]
  generalize hcount : (if config.checksPerFrame ≠ 0 then config.checksPerFrame else 1) = count
  have hpositive : 0 < count.toNat := by
    rw [← hcount]
    split
    · rename_i hne
      exact Nat.pos_of_ne_zero fun h0 => hne (UInt32.toNat_inj.1 h0)
    · decide
  obtain ⟨n, hn⟩ := Nat.exists_eq_add_of_lt hpositive
  have hn : count.toNat = n + 1 := by omega
  rw [hn, Nat.add_sub_cancel, List.filterMap_append, List.filterMap_replicate,
    List.replicate_succ']
  rfl

theorem frameOps_finalRechecks (config : FrameConfig) :
    (finalRechecks config).filterMap RowOp.frameOp = rechecks config := by
  rw [finalRechecks, rechecks, List.filterMap_flatMap]
  rfl

/-- What a frame does with the shared data is `frame`. -/
theorem rowProgram_frameOps (config : FrameConfig) (policy : ClientPolicy) :
    (rowProgram config policy).filterMap RowOp.frameOp = frame config policy := by
  have hbody : (rowBody config policy).filterMap RowOp.frameOp = runFramePolicy config policy := by
    cases policy with
    | eagerThread => rfl
    | hfiorCriticalAck | hfiorLate | hfiorSpin | hfiorTwoStage =>
      simp only [rowBody, runFramePolicy, List.filterMap_append, frameOps_ackPostUse]
      simp [List.filterMap_cons, RowOp.frameOp]
    | hfiorMulti =>
      simp only [rowBody, runFramePolicy, List.filterMap_append, frameOps_ackPostUse,
        frameOps_checks]
      split <;> simp [List.filterMap_cons, RowOp.frameOp]
    | hfiorLateLatch =>
      simp only [rowBody, runFramePolicy, List.filterMap_append, frameOps_ackPostUse,
        frameOps_checks, frameOps_finalRechecks]
      simp [List.filterMap_cons, RowOp.frameOp]
  rw [rowProgram, frame, List.filterMap_append, List.filterMap_append, hbody]
  simp only [rowFix, rowEnd, List.filterMap_cons, List.filterMap_append, RowOp.frameOp,
    List.filterMap_nil, List.append_nil, List.nil_append, frameOps_ackPostFrame]

/-! ## The state -/

/-- The variables of `run_frame_policy`. -/
structure FrameLocals where
  result : FrameObservation
  checksBefore : UInt64
  actionsBefore : UInt64
  summary : RecordSummary
  totalRecords : UInt64
  lateRecords : UInt64
deriving DecidableEq, Repr

/-- The counters of `struct client_stats`, and the vectors, that only the frame
thread writes. -/
structure FrameStats where
  frames : UInt64
  inputConsumptions : UInt64
  expensiveActions : UInt64
  lateLatchActions : UInt64
  lateLatchRecords : UInt64
  framesWithLateLatch : UInt64
  sampleAges : List UInt64
  legacyAges : List UInt64
  latchCosts : List UInt64
  startLateness : List UInt64
deriving DecidableEq, Repr

namespace FrameLocals

/-- What `take_pending` does for a frame. -/
def gather (l : FrameLocals) (late : Bool) (batch : List Record) : FrameLocals :=
  if late then { l with
    summary := summarizeRecords batch l.summary
    lateRecords := l.lateRecords + UInt64.ofNat batch.length }
  else { l with
    summary := summarizeRecords batch l.summary
    totalRecords := l.totalRecords + UInt64.ofNat batch.length }

def stamp (l : FrameLocals) (nowNs : UInt64) : ClockUse → FrameLocals
  | .legacy => { l with result.legacyMeasurementNs := nowNs, result.latchBeginNs := nowNs }
  | .latchBegin => { l with result.latchBeginNs := nowNs }
  | .latchEnd => { l with result.latchEndNs := nowNs }
  | .latchEndUse => { l with result.latchEndNs := nowNs, result.useTimeNs := nowNs }
  | .use => { l with result.useTimeNs := nowNs }

/-- The heads that are zero behind the branches. -/
def fixHeads (l : FrameLocals) (head : UInt64) : FrameLocals :=
  let initial := if l.result.headAtInitialLatch == 0 then head else l.result.headAtInitialLatch
  { l with
    result.headAtInitialLatch := initial
    result.headAtFinalLatch :=
      if l.result.headAtFinalLatch == 0 then initial else l.result.headAtFinalLatch }

/-- The times that are zero behind the branches. -/
def fixTimes (l : FrameLocals) (nowNs : UInt64) : FrameLocals :=
  { l with
    result.latchEndNs :=
      if l.result.latchEndNs == 0 then l.result.useTimeNs else l.result.latchEndNs
    result.useTimeNs := if l.result.useTimeNs == 0 then nowNs else l.result.useTimeNs }

/-- The fields that are computed at the end. -/
def observation (l : FrameLocals) (expensiveActions : UInt64) : FrameObservation :=
  let r := l.result
  let newest := l.summary.newest
  { r with
    newestTimestampNs := newest
    newestSequence := l.summary.newestSequence
    oldestTimestampNs :=
      if l.summary.oldest == RecordSummary.empty.oldest then 0 else l.summary.oldest
    records := l.totalRecords + l.lateRecords
    lateRecords := l.lateRecords
    actualAgeNs := if newest != 0 && r.useTimeNs ≥ newest then r.useTimeNs - newest else 0
    legacyAgeNs :=
      if newest != 0 && r.legacyMeasurementNs ≥ newest then r.legacyMeasurementNs - newest else 0
    latchCostNs := if r.latchEndNs ≥ r.latchBeginNs then r.latchEndNs - r.latchBeginNs else 0
    postLatchToUseNs := if r.useTimeNs ≥ r.latchEndNs then r.useTimeNs - r.latchEndNs else 0
    expensiveActions := expensiveActions - l.actionsBefore }

end FrameLocals

/-- The counters and the vectors at the end of `run_frame_policy`. -/
def FrameStats.observed (stats : FrameStats) (result : FrameObservation) : FrameStats :=
  let sampled := result.records != 0 && result.newestTimestampNs != 0
  { stats with
    inputConsumptions := stats.inputConsumptions + 1
    sampleAges := if sampled then stats.sampleAges ++ [result.actualAgeNs] else stats.sampleAges
    legacyAges := if sampled then stats.legacyAges ++ [result.legacyAgeNs] else stats.legacyAges
    latchCosts := stats.latchCosts ++ [result.latchCostNs]
    startLateness := stats.startLateness ++ [result.startLatenessNs] }

structure RowSystem where
  frames : FrameSystem
  /-- The rest of the frame. -/
  todo : List RowOp
  /-- The variables of the frame in progress. -/
  locals : Option FrameLocals
  stats : FrameStats
  /-- What `run_frame_policy` has returned, frame by frame. -/
  observations : List FrameObservation
  /-- `frames.csv`. -/
  rows : List FrameObservation

namespace RowSystem

/-- The client and its bridge. -/
def ring (s : RowSystem) : RingSystem := s.frames.loop.system

def policy (s : RowSystem) : ClientPolicy := s.ring.client.policy

/-- Before the first frame. -/
def initial (s : RingSystem) : RowSystem where
  frames := .initial s
  todo := []
  locals := none
  stats := ⟨0, 0, 0, 0, 0, 0, [], [], [], []⟩
  observations := []
  rows := []

/-- The start of `run_frame_policy`, with its head load. -/
def begin (s : RowSystem) (config : FrameConfig) (frames : FrameSystem)
    (targetStartNs frameStartNs : UInt64) : RowSystem :=
  { s with
    frames := frames
    todo := rowProgram config s.policy
    locals := some {
      result := .begin s.stats.frames targetStartNs frameStartNs s.ring.head
      checksBefore := s.ring.client.stats.ringChecks
      actionsBefore := s.stats.expensiveActions
      summary := .empty
      totalRecords := 0
      lateRecords := 0 } }

/-- What an operation on the shared data leaves in the variables. -/
def gathered (s : RowSystem) : RowOp → Option FrameLocals
  | .take late => s.locals.map fun l => l.gather late s.ring.client.pending.records
  | _ => s.locals

/-- The counter of expensive actions. -/
def countActions (s : RowSystem) (count : UInt64) : RowSystem :=
  { s with stats.expensiveActions := s.stats.expensiveActions + count }

/-- `late_latch_actions`, `frames_with_late_latch` and `late_latch_records`. -/
def countLate (s : RowSystem) (lateRecords : UInt64) : RowSystem :=
  { s with
    stats.lateLatchActions := s.stats.lateLatchActions + 1
    stats.framesWithLateLatch := s.stats.framesWithLateLatch + 1
    stats.lateLatchRecords := s.stats.lateLatchRecords + lateRecords }

/-- The end of `run_frame_policy`. -/
def observe (s : RowSystem) (l : FrameLocals) : RowSystem :=
  let result := l.observation s.stats.expensiveActions
  { s with
    locals := none
    stats := s.stats.observed result
    observations := s.observations ++ [result] }

/-- `write_frame` for the observation of the frame. -/
def writeFrame (s : RowSystem) : RowSystem :=
  { s with
    rows := s.rows ++ s.observations.getLast?.toList
    stats.frames := s.stats.frames + 1 }

/-- An operation of the frame thread on its variables `l`. -/
def perform (s : RowSystem) (l : FrameLocals) (nowNs : UInt64) : OwnOp → RowSystem
  | .clock target => { s with locals := some (l.stamp nowNs target) }
  | .loadInitialHead => { s with
      locals := some { l with result.headAtInitialLatch := s.ring.head } }
  | .loadFinalHead => { s with
      locals := some { l with result.headAtFinalLatch := s.ring.head } }
  | .actEach => if l.totalRecords != 0 then s.countActions l.totalRecords else s
  | .act => if l.totalRecords != 0 then s.countActions 1 else s
  | .actSecond => if l.lateRecords != 0 then s.countActions 1 else s
  | .actLate => if l.lateRecords != 0 then s.countLate l.lateRecords else s
  | .fixHeads => { s with locals := some (l.fixHeads s.ring.head) }
  | .fixTimes => { s with locals := some (l.fixTimes nowNs) }
  | .readLocalTail => { s with
      locals := some { l with result.localTailAfter := s.ring.client.localTail } }
  | .readChecks => { s with
      locals := some { l with
        result.checks := s.ring.client.stats.ringChecks - l.checksBefore } }
  | .loadDepthHead => { s with
      locals := some { l with result.ringDepthAfter := s.ring.head } }
  | .loadDepthTail => { s with
      locals := some { l with
        result.ringDepthAfter := l.result.ringDepthAfter - s.ring.tail } }
  | .observe => s.observe l
  | .writeFrame => s

end RowSystem

/-! ## The machine -/

/-- The ingress thread reads the socket for the eager policy, and the eventfd
for the others. -/
def ingressReads (policy : ClientPolicy) : LoopLabel → Bool
  | .receive .. => policy = .eagerThread
  | .system .readUrgent => policy ≠ .eagerThread
  | _ => true

inductive RowLabel where
  /-- The next frame. -/
  | begin (targetStartNs frameStartNs : UInt64)
  /-- A step of a drain, of an ACK, of the bridge or of the ingress thread. -/
  | loop (label : LoopLabel)
  /-- An operation of the frame thread on its own. -/
  | own (nowNs : UInt64)
deriving DecidableEq

/-- One step. -/
def rowStep (config : FrameConfig) (s : RowSystem) : RowLabel → Option RowSystem
  | .begin targetStartNs frameStartNs =>
    if s.todo.isEmpty then
      (frameStep config s.frames .frame).map fun frames =>
        s.begin config frames targetStartNs frameStartNs
    else none
  | .loop label =>
    if ingressReads s.policy label then
      match label.frameOp, s.todo with
      | none, _ => (frameStep config s.frames (.loop label)).map fun frames =>
          { s with frames := frames }
      | some op, next :: todo =>
        if next.frameOp = some op then
          (frameStep config s.frames (.loop label)).map fun frames =>
            { s with frames := frames, todo := todo, locals := s.gathered next }
        else none
      | some _, [] => none
    else none
  | .own nowNs => match s.todo with
    | .own .writeFrame :: todo =>
      if s.ring.frameRuns then some { s.writeFrame with todo := todo } else none
    | .own op :: todo => match s.locals with
      | some l =>
        if s.ring.frameRuns then some { s.perform l nowNs op with todo := todo } else none
      | none => none
    | _ => none

/-- The interleavings of the frames, and of what they write down, with the
bridge and the ingress thread. -/
def rowMachine (config : FrameConfig) : Machine RowSystem RowLabel where
  step := rowStep config

/-- Everything that a step can do. -/
inductive RowStep (config : FrameConfig) (s : RowSystem) : RowLabel → RowSystem → Prop
  | begin {targetStartNs frameStartNs frames} (hover : s.todo = [])
      (hframe : (frameMachine config).step s.frames .frame = some frames) :
    RowStep config s (.begin targetStartNs frameStartNs)
      (s.begin config frames targetStartNs frameStartNs)
  | other {label frames} (hop : label.frameOp = none)
      (hreads : ingressReads s.policy label = true)
      (hframe : (frameMachine config).step s.frames (.loop label) = some frames) :
    RowStep config s (.loop label) { s with frames := frames }
  | shared {label op next todo frames} (hop : label.frameOp = some op)
      (htodo : s.todo = next :: todo) (hnext : next.frameOp = some op)
      (hframe : (frameMachine config).step s.frames (.loop label) = some frames) :
    RowStep config s (.loop label)
      { s with frames := frames, todo := todo, locals := s.gathered next }
  | own {nowNs op todo l} (htodo : s.todo = .own op :: todo) (hne : op ≠ .writeFrame)
      (hlocals : s.locals = some l) (hruns : s.ring.frameRuns = true) :
    RowStep config s (.own nowNs) { s.perform l nowNs op with todo := todo }
  | writeFrame {nowNs todo} (htodo : s.todo = .own .writeFrame :: todo)
      (hruns : s.ring.frameRuns = true) :
    RowStep config s (.own nowNs) { s.writeFrame with todo := todo }

theorem rowStep_cases {config : FrameConfig} {s t : RowSystem} {label : RowLabel}
    (h : (rowMachine config).step s label = some t) : RowStep config s label t := by
  have h : rowStep config s label = some t := h
  cases label with
  | begin targetStartNs frameStartNs =>
    simp only [rowStep] at h
    split at h
    · rename_i hover
      obtain ⟨frames, hframes, rfl⟩ := Option.map_eq_some_iff.1 h
      exact .begin (List.isEmpty_iff.1 hover) hframes
    · cases h
  | loop label =>
    simp only [rowStep] at h
    split at h
    · rename_i hreads
      split at h
      · rename_i hop
        obtain ⟨frames, hframes, rfl⟩ := Option.map_eq_some_iff.1 h
        exact .other hop hreads hframes
      · rename_i op next todo hop htodo
        split at h
        · rename_i hnext
          obtain ⟨frames, hframes, rfl⟩ := Option.map_eq_some_iff.1 h
          exact .shared hop htodo hnext hframes
        · cases h
      · cases h
    · cases h
  | own nowNs =>
    simp only [rowStep] at h
    split at h
    · rename_i todo htodo
      split at h
      · rename_i hruns
        obtain rfl := Option.some.inj h
        exact .writeFrame htodo hruns
      · cases h
    · rename_i op todo hne htodo
      split at h
      · rename_i l hlocals
        split at h
        · rename_i hruns
          obtain rfl := Option.some.inj h
          exact .own htodo hne hlocals hruns
        · cases h
      · cases h
    · cases h

/-- The step of `frameMachine` that a step is, if it is one. -/
def RowLabel.frameLabel : RowLabel → Option FrameLabel
  | .begin .. => some .frame
  | .loop label => some (.loop label)
  | .own _ => none

/-- An operation of the frame thread on its own changes no shared data. -/
@[simp] theorem RowSystem.perform_frames (s : RowSystem) (l : FrameLocals) (nowNs : UInt64)
    (op : OwnOp) : (s.perform l nowNs op).frames = s.frames := by
  cases op with
  | actEach | act | actSecond | actLate =>
    simp only [perform]
    split <;> rfl
  | _ => rfl

/-- On the shared data a run is a run of `frameMachine`. -/
theorem rowMachine_frames {config : FrameConfig} {s t : RowSystem} {labels : List RowLabel}
    (hrun : (rowMachine config).run s labels = some t) :
    (frameMachine config).run s.frames (labels.filterMap RowLabel.frameLabel) =
      some t.frames := by
  induction labels generalizing s with
  | nil =>
    cases hrun
    rfl
  | cons label labels ih =>
    obtain ⟨u, hstep, hrest⟩ := Machine.run_cons.1 hrun
    have hrest := ih hrest
    cases rowStep_cases hstep with
    | begin hover hframe => exact Machine.run_cons.2 ⟨_, hframe, hrest⟩
    | other hop hreads hframe => exact Machine.run_cons.2 ⟨_, hframe, hrest⟩
    | shared hop htodo hnext hframe => exact Machine.run_cons.2 ⟨_, hframe, hrest⟩
    | own htodo hne hlocals hruns =>
      rw [RowSystem.perform_frames] at hrest
      exact hrest
    | writeFrame htodo hruns => exact hrest

/-- Along a run, what `frameMachine` has to do is what is on the list. -/
theorem rowMachine_rest {config : FrameConfig} {s t : RowSystem} {labels : List RowLabel}
    (h : s.frames.rest = s.todo.filterMap RowOp.frameOp)
    (hrun : (rowMachine config).run s labels = some t) :
    t.frames.rest = t.todo.filterMap RowOp.frameOp := by
  refine Machine.run_invariant
    (fun u : RowSystem => u.frames.rest = u.todo.filterMap RowOp.frameOp) ?_ h hrun
  intro u label v hu hstep
  cases rowStep_cases hstep with
  | begin hover hframe =>
    cases frameStep_cases hframe
    exact (rowProgram_frameOps config u.policy).symm
  | other hop hreads hframe =>
    cases frameStep_cases hframe with
    | own hop' => rw [hop] at hop'; cases hop'
    | other hop' hloop => exact hu
  | @shared label op next todo frames hop htodo hnext hframe =>
    have hrest : u.frames.rest = op :: todo.filterMap RowOp.frameOp := by
      rw [hu, htodo, List.filterMap_cons_some hnext]
    cases frameStep_cases hframe with
    | own hop' hrest' hloop =>
      rw [hrest] at hrest'
      exact (List.cons.inj hrest').2.symm
    | other hop' hloop => rw [hop] at hop'; cases hop'
  | own htodo hne hlocals hruns =>
    rw [htodo] at hu
    show (u.perform _ _ _).frames.rest = _
    rw [RowSystem.perform_frames]
    exact hu
  | writeFrame htodo hruns =>
    rw [htodo] at hu
    exact hu

end Hfior
