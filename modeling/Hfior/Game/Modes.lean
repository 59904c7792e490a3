import Hfior.Game.Benchmark
import Hfior.Game.Delivered
import Mathlib.Data.List.Flatten

/-!
# The two modes of the game benchmark

The benchmark compares a mode that reacts to each motion with one that
reacts once a frame.  The comparison is fair if both see the same input, take
the same way through the loop, and draw the same camera.

`takeInput_brings` says what the reads of a frame bring, in any mode.
`Matches` relates the two modes under the same environment: their sessions
are the same, and so are their cameras and samples, as long as no frame that
draws nothing has read motions.  One frame keeps it (`Matches.frame`), and so
does every run (`modes_agree`).
-/

namespace Hfior

/-! ## What a frame has read -/

/-- The motions of a frame, in the order of the reads. -/
def FrameInput.motions (input : FrameInput) : List Motion := input.early ++ input.late

/-- The time of the last of some motions. -/
def newestTimestamp (newest : UInt64) (motions : List Motion) : UInt64 :=
  motions.foldl (fun _ motion => motion.timestampNs) newest

@[simp] theorem newestTimestamp_append (newest : UInt64) (motions motions' : List Motion) :
    newestTimestamp newest (motions ++ motions') =
      newestTimestamp (newestTimestamp newest motions) motions' :=
  List.foldl_append

/-- Behind a motion the first time does not matter. -/
theorem newestTimestamp_of_ne_nil {motions : List Motion} (h : motions ≠ [])
    (newest newest' : UInt64) : newestTimestamp newest motions = newestTimestamp newest' motions := by
  cases motions with
  | nil => exact absurd rfl h
  | cons motion motions => rfl

theorem newestAfter_eq (newest : UInt64) (records : List Record) :
    newestAfter newest records = newestTimestamp newest (records.map Record.motion) := by
  rw [newestTimestamp, List.foldl_map]
  rfl

/-- Every motion has a time. -/
def Stamped (motions : List Motion) : Prop := ∀ motion ∈ motions, motion.timestampNs ≠ 0

/-- The last of some stamped motions has a time. -/
theorem Stamped.newestTimestamp_ne {motions : List Motion} (h : Stamped motions)
    (hne : motions ≠ []) (newest : UInt64) : newestTimestamp newest motions ≠ 0 := by
  obtain ⟨init, last, rfl⟩ := (List.eq_nil_or_concat' motions).resolve_left hne
  rw [newestTimestamp_append]
  exact h last (by simp)

/-- The input is what the client has delivered in between. -/
structure Brings (c c' : GameClient) (input : FrameInput) : Prop where
  delivered : c'.delivered.map Record.motion =
    c.delivered.map Record.motion ++ input.motions
  count : input.inputRecords = UInt64.ofNat input.motions.length
  newest : Stamped input.motions →
    input.newestInputTimestampNs = newestTimestamp 0 input.motions

theorem brings_empty {c c' : GameClient} (h : c'.delivered = c.delivered) :
    Brings c c' .empty where
  delivered := by simp [h, FrameInput.motions, FrameInput.empty]
  count := rfl
  newest := fun _ => rfl

theorem Brings.congr {c c' c'' : GameClient} {input : FrameInput} (h : Brings c c' input)
    (hdelivered : c''.delivered = c'.delivered) : Brings c c'' input where
  delivered := by rw [hdelivered, h.delivered]
  count := h.count
  newest := h.newest

/-- A full buffer is seen to its end. -/
theorem ReadOk.seen {now : GameClient} {env : ReadEnv} {r : ReadResult}
    {records : List Record} (h : ReadOk now env r records)
    (hwrites : env.motionCapacity.isSome = true) : r.seen = records.map Record.motion := by
  rw [ReadResult.seen, h.motions hwrites, ← h.count]
  exact List.take_of_length_le (by simp)

theorem ReadOk.records_eq {now : GameClient} {env : ReadEnv} {r : ReadResult}
    {records : List Record} (h : ReadOk now env r records) :
    r.batch.records = UInt64.ofNat records.length := by
  rw [h.count, UInt64.ofNat_toNat]

section
variable {α : Type*} {s : Session}

theorem readEarly_brings (s : Session) (env : FrameEnvironment α) :
    Brings s.client (s.readEarly env).2.2.client (s.readEarly env).2.1 ∧
      (s.readEarly env).2.1.late = [] := by
  unfold Session.readEarly
  split
  · exact ⟨brings_empty rfl, rfl⟩
  dsimp only
  split
  · rename_i hok
    obtain ⟨records, hread⟩ := read_ok hok
    have hseen := hread.seen rfl
    refine ⟨⟨?_, ?_, ?_⟩, rfl⟩
    · rw [hread.delivered, GameClient.delivered_handleAll, List.map_append]
      simp [FrameInput.motions, FrameInput.ofEarly, hseen]
    · simp [FrameInput.motions, FrameInput.ofEarly, hseen, hread.records_eq]
    · intro _
      simp [FrameInput.motions, FrameInput.ofEarly, hseen, hread.newest, newestAfter_eq]
  rename_i hfail
  rw [Bool.not_eq_true] at hfail
  have hnothing := delivered_of_read_failed hfail
  split
  · exact ⟨brings_empty hnothing, rfl⟩
  · exact ⟨brings_empty hnothing, rfl⟩

/-- The late read adds to the input of the early one. -/
theorem readLate_brings {c : GameClient} {input : FrameInput} {s : Session}
    (env : FrameEnvironment α) (h : Brings c s.client input) (hlate : input.late = []) :
    Brings c (s.readLate env input).2.2.client (s.readLate env input).2.1 ∧
      ((s.readLate env input).1 = false → (s.readLate env input).2.1.late = []) := by
  unfold Session.readLate
  split
  · exact ⟨h, fun _ => hlate⟩
  dsimp only
  split
  case isTrue hok =>
    obtain ⟨records, hread⟩ := read_ok hok
    have hseen := hread.seen rfl
    have hmotions : (input.addLate (s.client.read env.lateRead)).motions =
        input.motions ++ records.map Record.motion := by
      simp [FrameInput.motions, FrameInput.addLate, hseen, hlate]
    refine ⟨⟨?_, ?_, ?_⟩, fun hfail => by cases hfail⟩
    · rw [hread.delivered, GameClient.delivered_handleAll, List.map_append, h.delivered,
        hmotions, List.append_assoc]
    · rw [hmotions, List.length_append, List.length_map, UInt64.ofNat_add]
      simp [FrameInput.addLate, h.count, hread.records_eq]
    · intro hstamped
      rw [hmotions] at hstamped ⊢
      have hearly := h.newest fun motion hmotion =>
        hstamped motion (List.mem_append_left _ hmotion)
      have hlast : Stamped (records.map Record.motion) := fun motion hmotion =>
        hstamped motion (List.mem_append_right _ hmotion)
      simp only [FrameInput.addLate, hread.newest, newestAfter_eq, newestTimestamp_append]
      -- Without a late record the early time stays.
      by_cases hnil : records.map Record.motion = []
      · simp [hnil, newestTimestamp, hearly]
      · have hne := hlast.newestTimestamp_ne hnil 0
        rw [if_pos (by simpa using hne)]
        exact newestTimestamp_of_ne_nil hnil _ _
  case isFalse hfail =>
    rw [Bool.not_eq_true] at hfail
    exact ⟨h.congr (delivered_of_read_failed hfail), fun _ => hlate⟩

/-! ### Before the reads -/

theorem client_pollEvents (events : List WindowEvent) :
    (s.pollEvents events).client = s.client := by
  induction events generalizing s with
  | nil => rfl
  | cons event events ih =>
    rw [Session.pollEvents, List.foldl_cons, ← Session.pollEvents, ih]
    cases event with
    | keyDown repeated isQ =>
      dsimp only [Session.pollEvent]
      split <;> rfl
    | focusLost =>
      dsimp only [Session.pollEvent]
      split <;> rfl
    | mouseButtonDown captured =>
      dsimp only [Session.pollEvent]
      split <;> rfl
    | quit | focusGained | mouseMotion | other => rfl

theorem delivered_connectSession (frameStartNs : UInt64) (env : ConnectEnv) :
    (s.connect frameStartNs env).client.delivered = s.client.delivered := by
  unfold Session.connect
  split
  · exact GameClient.delivered_connect _ env
  · rfl

theorem client_noteReady (frameStartNs : UInt64) :
    (s.noteReady frameStartNs).client = s.client := by
  unfold Session.noteReady
  split
  · split <;> rfl
  · rfl

theorem client_startMeasurement (o : BenchmarkOptions) (frameStartNs : UInt64) :
    (s.startMeasurement o frameStartNs).client = s.client := by
  unfold Session.startMeasurement
  split <;> rfl

end

/-! ## One frame -/

theorem delivered_prepare {α : Type*} (s : Session) (env : FrameEnvironment α)
    (o : BenchmarkOptions) : (s.prepare env o).client.delivered = s.client.delivered := by
  rw [Session.prepare, client_startMeasurement, client_noteReady, delivered_connectSession]

/-- The frame has come to the drawing. -/
def FrameStage.drawn : FrameStage → Bool
  | .swapFault | .acknowledgeFault | .shown => true
  | .quit | .earlyFault | .hidden | .lateFault => false

section
variable {α : Type*}

/-- What the reads of a frame bring, and where a frame that is over has
stopped. -/
theorem takeInput_brings (s : Session) (env : FrameEnvironment α) (o : BenchmarkOptions) :
    Brings s.client (s.takeInput env o).2.2.client (s.takeInput env o).2.1 ∧
      ∀ stage, (s.takeInput env o).1 = some stage →
        stage.drawn = false ∧ (s.takeInput env o).2.1.late = [] := by
  unfold Session.takeInput
  dsimp only
  split
  · have hclient : (s.pollEvents env.events).client.delivered = s.client.delivered := by
      rw [client_pollEvents]
    refine ⟨brings_empty hclient, ?_⟩
    rintro stage ⟨⟩
    exact ⟨rfl, rfl⟩
  -- The session in front of the reads has delivered nothing new.
  have hbefore : ((s.pollEvents env.events).prepare env o).client.delivered =
      s.client.delivered := by
    rw [delivered_prepare, client_pollEvents]
  generalize (s.pollEvents env.events).prepare env o = s' at hbefore ⊢
  obtain ⟨hearly, hlate⟩ := readEarly_brings s' env
  replace hearly : Brings s.client (s'.readEarly env).2.2.client (s'.readEarly env).2.1 :=
    ⟨by rw [hearly.delivered, hbefore], hearly.count, hearly.newest⟩
  split
  · refine ⟨hearly, ?_⟩
    rintro stage ⟨⟩
    exact ⟨rfl, hlate⟩
  split
  · refine ⟨hearly, ?_⟩
    rintro stage ⟨⟩
    exact ⟨rfl, hlate⟩
  obtain ⟨hboth, hfail⟩ := readLate_brings env hearly hlate
  refine ⟨hboth, ?_⟩
  intro stage hstage
  split at hstage
  · cases hstage
  rename_i hok
  rw [Bool.not_eq_true] at hok
  obtain rfl := Option.some.inj hstage
  exact ⟨rfl, hfail hok⟩

/-- The swap and the acknowledgement deliver nothing. -/
theorem present_delivered (s : Session) (env : FrameEnvironment α) :
    (s.present env).2.client.delivered = s.client.delivered ∧
      (s.present env).1.drawn = true := by
  unfold Session.present
  split
  · exact ⟨rfl, rfl⟩
  split
  · exact ⟨rfl, rfl⟩
  dsimp only
  split
  · exact ⟨GameClient.delivered_acknowledge _ _, rfl⟩
  · exact ⟨GameClient.delivered_acknowledge _ _, rfl⟩

end

/-! ## The reaction -/

section
variable {α : Type*} {applyMotion : α → Motion → α} {camera : α} {input : FrameInput}

theorem cameraPath_length (motions : List Motion) :
    (cameraPath applyMotion camera motions).length = motions.length := by
  induction motions generalizing camera with
  | nil => rfl
  | cons motion motions ih => simp [cameraPath, ih]

theorem cameraPath_getLast? {motions : List Motion} (h : motions ≠ []) :
    (cameraPath applyMotion camera motions).getLast? =
      some (motions.foldl applyMotion camera) := by
  induction motions generalizing camera with
  | nil => exact absurd rfl h
  | cons motion motions ih =>
    rw [cameraPath, List.getLast?_cons, List.foldl_cons]
    by_cases hnil : motions = []
    · simp [hnil, cameraPath]
    · rw [ih hnil, Option.getD_some]

/-- Both modes apply the early motions and then the late ones. -/
theorem react_camera (mode : InputMode) :
    (react applyMotion mode (applyEarly applyMotion mode camera input) input).camera =
      input.motions.foldl applyMotion camera := by
  cases mode with
  | kEager => rfl
  | kHfior => exact List.foldl_append.symm

/-- The last reaction is one to the camera that is drawn. -/
theorem react_getLast? (mode : InputMode) (hcount : input.inputRecords = UInt64.ofNat
    input.motions.length) :
    (react applyMotion mode camera input).reactions.getLast? =
      some (react applyMotion mode camera input).camera := by
  cases mode with
  | kHfior => rfl
  | kEager =>
    simp only [react, reactEager]
    split
    · simp
    rename_i hsome
    have hne : input.early ++ input.late ≠ [] := by
      intro hnil
      have hzero : input.motions = [] := hnil
      simp [hcount, hzero] at hsome
    rw [List.append_nil, cameraPath_getLast? hne]

/-- The eager mode reacts once for each record, and at least once. -/
theorem reactEager_count (hcount : input.inputRecords = UInt64.ofNat input.motions.length) :
    UInt64.ofNat (react applyMotion .kEager camera input).reactions.length =
      max 1 input.inputRecords := by
  have hlength : (react applyMotion .kEager camera input).reactions.length =
      input.motions.length + if input.inputRecords == 0 then 1 else 0 := by
    simp only [react, reactEager, List.length_append, cameraPath_length, FrameInput.motions]
    split <;> rfl
  rw [hlength, UInt64.ofNat_add, ← hcount]
  by_cases hzero : input.inputRecords = 0
  · rw [hzero]
    rfl
  · have hpos : 1 ≤ input.inputRecords := by
      rw [UInt64.le_iff_toNat_le]
      have hne : input.inputRecords.toNat ≠ 0 := fun h => hzero (UInt64.toNat_inj.1 h)
      exact Nat.one_le_iff_ne_zero.2 hne
    have hmax : max 1 input.inputRecords = input.inputRecords := if_pos hpos
    simp [hzero, hmax]

/-- With stamped motions both modes take the same newest time. -/
theorem react_newest (mode : InputMode) (hnewest : input.newestInputTimestampNs =
    newestTimestamp 0 input.motions) :
    (react applyMotion mode camera input).newestInputTimestampNs =
      newestTimestamp 0 input.motions := by
  cases mode with
  | kHfior => exact hnewest
  | kEager =>
    show newestTimestamp input.newestInputTimestampNs input.motions = _
    by_cases hnil : input.motions = []
    · rw [hnil] at hnewest ⊢
      exact hnewest
    · exact newestTimestamp_of_ne_nil hnil _ _

end

/-! ## What becomes of the motions -/

/-- The motions of a frame that move the camera of a mode. -/
def FrameLog.applied {α : Type*} (mode : InputMode) (f : FrameLog α) : List Motion :=
  match mode with
  | .kEager => if f.stage.drawn then f.input.motions else []
  | .kHfior => f.input.motions

section
variable {α : Type*} {applyMotion : α → Motion → α} {o : BenchmarkOptions}
variable {b : Benchmark α} {env : FrameEnvironment α}

/-- The entry of a frame, in terms of the delivered records. -/
structure Accounts (applyMotion : α → Motion → α) (mode : InputMode) (b b' : Benchmark α)
    (entry : FrameLog α) : Prop where
  frames : b'.frames = b.frames ++ [entry]
  delivered : b'.session.client.delivered.map Record.motion =
    b.session.client.delivered.map Record.motion ++ entry.input.motions
  camera : b'.camera = (entry.applied mode).foldl applyMotion b.camera

theorem addSample_session (input : FrameInput) (reaction : Reaction α) :
    (b.addSample o env input reaction).session.client = b.session.client ∧
      (b.addSample o env input reaction).frames = b.frames ∧
      (b.addSample o env input reaction).camera = b.camera := by
  unfold Benchmark.addSample
  split <;> exact ⟨rfl, rfl, rfl⟩

/-- The three fields behind the drawing. -/
theorem draw_session (applyMotion : α → Motion → α) (o : BenchmarkOptions) (b : Benchmark α)
    (env : FrameEnvironment α) (input : FrameInput) (session : Session) :
    (b.draw applyMotion o env input session).session.client = (session.present env).2.client ∧
      (b.draw applyMotion o env input session).frames = b.frames ++
        [⟨(session.present env).1, (session.present env).2.measurementStarted, input,
          (react applyMotion o.mode (applyEarly applyMotion o.mode b.camera input)
            input).reactions⟩] ∧
      (b.draw applyMotion o env input session).camera =
        input.motions.foldl applyMotion b.camera := by
  rw [← react_camera o.mode]
  unfold Benchmark.draw
  dsimp only
  split
  · exact addSample_session input _
  · exact ⟨rfl, rfl, rfl⟩

/-- What one frame does with its motions. -/
theorem frame_accounts (applyMotion : α → Motion → α) (o : BenchmarkOptions) (b : Benchmark α)
    (env : FrameEnvironment α) :
    ∃ entry, Accounts applyMotion o.mode b (b.frame applyMotion o env) entry := by
  obtain ⟨hbrings, hended⟩ := takeInput_brings b.session env o
  unfold Benchmark.frame
  generalize b.session.takeInput env o = taken at hbrings hended ⊢
  obtain ⟨ended, input, session⟩ := taken
  cases ended with
  | some stage =>
    obtain ⟨hdrawn, hlate⟩ := hended stage rfl
    refine ⟨_, rfl, hbrings.delivered, ?_⟩
    simp only [Benchmark.skip] at hlate ⊢
    cases hmode : o.mode with
    | kEager => simp [applyEarly, FrameLog.applied, hdrawn]
    | kHfior => simp [applyEarly, FrameLog.applied, FrameInput.motions, hlate]
  | none =>
    obtain ⟨hpresent, hdrawn⟩ := present_delivered session env
    obtain ⟨hclient, hframes, hcamera⟩ := draw_session applyMotion o b env input session
    refine ⟨_, hframes, ?_, ?_⟩
    · dsimp only
      rw [hclient, hpresent]
      exact hbrings.delivered
    · dsimp only
      rw [hcamera]
      cases hmode : o.mode with
      | kEager => simp [FrameLog.applied, hdrawn]
      | kHfior => rfl

/-! ## The cameras -/

/-- A filter loses nothing exactly if there is nothing behind what it drops. -/
theorem flatMap_filter_eq_iff {β γ : Type*} {p : β → Bool} {g : β → List γ} {xs : List β} :
    (xs.filter p).flatMap g = xs.flatMap g ↔ ∀ x ∈ xs, p x = false → g x = [] := by
  induction xs with
  | nil => simp
  | cons x xs ih =>
    rw [List.forall_mem_cons, ← ih, List.flatMap_cons]
    cases hx : p x with
    | true => simp [hx]
    | false =>
      have hdrop : (x :: xs).filter p = xs.filter p := by simp [hx]
      rw [hdrop]
      constructor
      · intro heq
        have hlength := ((List.filter_sublist (p := p) (l := xs)).flatMap g).length_le
        rw [heq, List.length_append] at hlength
        have hnil : g x = [] := List.eq_nil_of_length_eq_zero (by omega)
        rw [hnil] at heq
        exact ⟨fun _ => hnil, heq⟩
      · rintro ⟨hnil, heq⟩
        rw [heq, hnil rfl, List.nil_append]

/-- No frame that draws nothing has read motions. -/
def NothingLost (frames : List (FrameLog α)) : Prop :=
  ∀ f ∈ frames, f.stage.drawn = false → f.input.motions = []

/-- The frames are the account of the delivered records and of the camera. -/
structure MotionAccount (applyMotion : α → Motion → α) (mode : InputMode) (camera : α)
    (b : Benchmark α) : Prop where
  delivered : b.session.client.delivered.map Record.motion =
    b.frames.flatMap fun f => f.input.motions
  camera : b.camera = (b.frames.flatMap (FrameLog.applied mode)).foldl applyMotion camera

theorem MotionAccount.frame {camera : α} (h : MotionAccount applyMotion o.mode camera b)
    (env : FrameEnvironment α) :
    MotionAccount applyMotion o.mode camera (b.frame applyMotion o env) := by
  obtain ⟨entry, hframes, hdelivered, hcamera⟩ :=
    frame_accounts applyMotion o b env
  constructor
  case delivered =>
    rw [hdelivered, hframes, h.delivered]
    simp
  case camera =>
    rw [hcamera, hframes, h.camera]
    simp [List.foldl_append]

theorem motionAccount_run {captured : Bool} {camera : α} {envs : List (FrameEnvironment α)}
    (hrun : (benchmarkLoop applyMotion o).run (.start captured camera) envs = some b) :
    MotionAccount applyMotion o.mode camera b := by
  refine Machine.run_invariant (MotionAccount applyMotion o.mode camera) ?_ ⟨rfl, rfl⟩ hrun
  intro b env b' h hstep
  simp only [benchmarkLoop] at hstep
  split at hstep
  · obtain rfl := Option.some.inj hstep
    exact h.frame env
  · cases hstep

theorem applied_eager_eq (frames : List (FrameLog α)) :
    frames.flatMap (FrameLog.applied .kEager) =
      (frames.filter (·.stage.drawn)).flatMap fun f => f.input.motions := by
  induction frames with
  | nil => rfl
  | cons f frames ih =>
    rw [List.flatMap_cons, ih, List.filter_cons]
    cases hdrawn : f.stage.drawn with
    | true => simp [FrameLog.applied, hdrawn]
    | false => simp [FrameLog.applied, hdrawn]

/-- In every run from the start: the camera of the late mode is behind every
record that the stream has delivered, each once and in order, and the camera
of the eager mode is behind those of the frames that have come to the
drawing.  These are all of them exactly if no other frame has read any. -/
theorem cameras_exact {captured : Bool} {camera : α} {envs : List (FrameEnvironment α)}
    (hrun : (benchmarkLoop applyMotion o).run (.start captured camera) envs = some b) :
    (o.mode = .kHfior → b.camera =
      (deliveredMotions b.session.client.trace).foldl applyMotion camera) ∧
    (o.mode = .kEager → b.camera = ((b.frames.filter (·.stage.drawn)).flatMap
      fun f => f.input.motions).foldl applyMotion camera) ∧
    ((b.frames.filter (·.stage.drawn)).flatMap (fun f => f.input.motions) =
      deliveredMotions b.session.client.trace ↔ NothingLost b.frames) := by
  have h := motionAccount_run hrun
  have hdelivered : deliveredMotions b.session.client.trace =
      b.frames.flatMap fun f => f.input.motions := h.delivered
  refine ⟨?_, ?_, ?_⟩
  · intro hmode
    rw [h.camera, hdelivered, hmode]
    rfl
  · intro hmode
    rw [h.camera, hmode, applied_eager_eq]
  · rw [hdelivered]
    exact flatMap_filter_eq_iff

end

theorem cameras_exact_gameFrame :
    ∃ b, (benchmarkLoop recordMotion (gameOptions.inMode .kHfior)).run (.start true [])
        [gameFrame] = some b ∧
      b.camera = (deliveredMotions b.session.client.trace).foldl recordMotion [] ∧
      b.camera.length = 2 := by
  have hrun : (benchmarkLoop recordMotion (gameOptions.inMode .kHfior)).run (.start true [])
      [gameFrame] = some _ := rfl
  exact ⟨_, hrun, (cameras_exact hrun).1 rfl, by decide⟩

/-! ## Both modes under one environment -/

/-- What a frame has done apart from its reactions. -/
def FrameLog.way {α : Type*} (f : FrameLog α) : FrameStage × Bool × FrameInput :=
  (f.stage, f.measured, f.input)

/-- The camera of the last reaction. -/
def FrameLog.seenLast {α : Type*} (f : FrameLog α) : Option α := f.reactions.getLast?

/-- The sample of a mode that reacts to each record. -/
def FrameSample.reactingToEach (sample : FrameSample) : FrameSample :=
  { sample with expensiveActions := max 1 sample.inputRecords }

/-- The late mode in the state `h`, and the eager one in the state `e`. -/
structure Matches {α : Type*} (h e : Benchmark α) : Prop where
  session : e.session = h.session
  frameIndex : e.frameIndex = h.frameIndex
  ways : e.frames.map FrameLog.way = h.frames.map FrameLog.way
  once : ∀ sample ∈ h.samples, sample.expensiveActions = 1
  camera : NothingLost h.frames → e.camera = h.camera
  seenLast : NothingLost h.frames →
    e.frames.map FrameLog.seenLast = h.frames.map FrameLog.seenLast
  samples : NothingLost h.frames → (∀ f ∈ h.frames, Stamped f.input.motions) →
    e.samples = h.samples.map FrameSample.reactingToEach

section
variable {α : Type*} {applyMotion : α → Motion → α} {o : BenchmarkOptions}
variable {h e : Benchmark α}

theorem NothingLost.of_append {frames frames' : List (FrameLog α)}
    (h : NothingLost (frames ++ frames')) : NothingLost frames :=
  fun f hf => h f (List.mem_append_left _ hf)

theorem NothingLost.last {frames : List (FrameLog α)} {f : FrameLog α}
    (h : NothingLost (frames ++ [f])) : f.stage.drawn = false → f.input.motions = [] :=
  h f (List.mem_append_right _ (List.mem_singleton_self f))

/-- A frame that is over in front of the reaction. -/
theorem Matches.skip (hm : Matches h e) {stage : FrameStage} (hdrawn : stage.drawn = false)
    {input : FrameInput} (hlate : input.late = []) (session : Session) :
    Matches (h.skip applyMotion (o.inMode .kHfior) stage input session)
      (e.skip applyMotion (o.inMode .kEager) stage input session) := by
  constructor
  case session => rfl
  case frameIndex => exact hm.frameIndex
  case ways => simp [Benchmark.skip, hm.ways, FrameLog.way]
  case once => exact hm.once
  case camera =>
    intro hlost
    have hmotions : input.motions = [] := hlost.last hdrawn
    have hearly : input.early = [] := by
      rwa [FrameInput.motions, hlate, List.append_nil] at hmotions
    simp [Benchmark.skip, applyEarly, hearly, hm.camera hlost.of_append]
  case seenLast =>
    intro hlost
    simp only [Benchmark.skip, List.map_append, hm.seenLast hlost.of_append]
  case samples =>
    intro hlost hstamped
    exact hm.samples hlost.of_append fun f hf => hstamped f (List.mem_append_left _ hf)

/-- Two samples of one frame, from the reactions of the two modes. -/
theorem Matches.addSample (hm : Matches h e) (o : BenchmarkOptions)
    (env : FrameEnvironment α) {input : FrameInput} {late eager : Reaction α}
    (honce : late.reactions.length = 1)
    (heach : UInt64.ofNat eager.reactions.length = max 1 input.inputRecords)
    (hcamera : NothingLost h.frames → eager.camera = late.camera)
    (hnewest : (∀ f ∈ h.frames, Stamped f.input.motions) →
      eager.newestInputTimestampNs = late.newestInputTimestampNs) :
    Matches (h.addSample (o.inMode .kHfior) env input late)
      (e.addSample (o.inMode .kEager) env input eager) := by
  unfold Benchmark.addSample
  rw [hm.session]
  split
  · constructor
    case session => rfl
    case frameIndex => exact congrArg (· + 1) hm.frameIndex
    case ways => exact hm.ways
    case once =>
      intro sample hsample
      rcases List.mem_append.1 hsample with hold | hnew
      · exact hm.once sample hold
      · rw [List.mem_singleton.1 hnew]
        simp [honce]
    case camera => exact hm.camera
    case seenLast => exact hm.seenLast
    case samples =>
      intro hlost hstamped
      simp only [List.map_append, hm.samples hlost hstamped, FrameSample.reactingToEach, heach,
        hcamera hlost, hnewest hstamped, hm.frameIndex, List.map_cons, List.map_nil]
  · exact hm

/-- A frame that comes to the drawing. -/
theorem Matches.draw (hm : Matches h e) (env : FrameEnvironment α) {input : FrameInput}
    (hcount : input.inputRecords = UInt64.ofNat input.motions.length)
    (hnewest : Stamped input.motions →
      input.newestInputTimestampNs = newestTimestamp 0 input.motions) (session : Session) :
    Matches (h.draw applyMotion (o.inMode .kHfior) env input session)
      (e.draw applyMotion (o.inMode .kEager) env input session) := by
  unfold Benchmark.draw
  dsimp only [BenchmarkOptions.inMode_mode]
  -- Both modes come to the camera behind all the motions.
  have hcamera : ∀ camera, (react applyMotion .kEager
      (applyEarly applyMotion .kEager camera input) input).camera =
      (react applyMotion .kHfior (applyEarly applyMotion .kHfior camera input) input).camera :=
    fun camera => by rw [react_camera, react_camera]
  have hdrawn : Matches
      { h with
        session := (session.present env).2
        camera := (react applyMotion .kHfior
          (applyEarly applyMotion .kHfior h.camera input) input).camera
        frames := h.frames ++ [⟨(session.present env).1,
          (session.present env).2.measurementStarted, input, (react applyMotion .kHfior
            (applyEarly applyMotion .kHfior h.camera input) input).reactions⟩] }
      { e with
        session := (session.present env).2
        camera := (react applyMotion .kEager
          (applyEarly applyMotion .kEager e.camera input) input).camera
        frames := e.frames ++ [⟨(session.present env).1,
          (session.present env).2.measurementStarted, input, (react applyMotion .kEager
            (applyEarly applyMotion .kEager e.camera input) input).reactions⟩] } := by
    constructor
    case session => rfl
    case frameIndex => exact hm.frameIndex
    case ways => simp [hm.ways, FrameLog.way]
    case once => exact hm.once
    case camera =>
      intro hlost
      show _ = _
      rw [hcamera, hm.camera hlost.of_append]
    case seenLast =>
      intro hlost
      simp only [List.map_append, List.map_cons, List.map_nil, FrameLog.seenLast,
        hm.seenLast hlost.of_append, react_getLast? _ hcount, hcamera,
        hm.camera hlost.of_append]
    case samples =>
      intro hlost hstamped
      exact hm.samples hlost.of_append fun f hf => hstamped f (List.mem_append_left _ hf)
  split
  · refine hdrawn.addSample o env rfl (reactEager_count hcount) ?_ ?_
    · intro hlost
      rw [hcamera, hm.camera hlost.of_append]
    · intro hstamped
      have hinput := hstamped _ (List.mem_append_right _ (List.mem_singleton_self _))
      rw [react_newest _ (hnewest hinput), react_newest _ (hnewest hinput)]
  · exact hdrawn

/-- The two modes stay together for one frame. -/
theorem Matches.frame (hm : Matches h e) (env : FrameEnvironment α) :
    Matches (h.frame applyMotion (o.inMode .kHfior) env)
      (e.frame applyMotion (o.inMode .kEager) env) := by
  obtain ⟨hbrings, hended⟩ := takeInput_brings h.session env o
  have hsame : ∀ mode, h.session.takeInput env (o.inMode mode) = h.session.takeInput env o :=
    fun _ => rfl
  unfold Benchmark.frame
  rw [hm.session, hsame, hsame]
  generalize h.session.takeInput env o = taken at hbrings hended ⊢
  obtain ⟨ended, input, session⟩ := taken
  cases ended with
  | some stage =>
    obtain ⟨hdrawn, hlate⟩ := hended stage rfl
    exact hm.skip hdrawn hlate session
  | none => exact hm.draw env hbrings.count hbrings.newest session

/-- Every run of the late mode is one of the eager mode, under the same
environment: they go the same way through the same frames, with the same
session.  If nothing is lost, they also draw the same cameras, and if in
addition no motion has the timestamp 0, their samples differ in the number of
actions only: one for each frame in the late mode, and one for each record in
the eager mode, and at least one.  A last timestamp of 0 is passed over by
the late mode, and taken by the eager mode. -/
theorem modes_agree {captured : Bool} {camera : α} {envs : List (FrameEnvironment α)}
    (hrun : (benchmarkLoop applyMotion (o.inMode .kHfior)).run (.start captured camera) envs =
      some h) :
    ∃ e, (benchmarkLoop applyMotion (o.inMode .kEager)).run (.start captured camera) envs =
      some e ∧ Matches h e := by
  refine Machine.run_lockstep Matches ?_ ?_ hrun
  · intro h e env h' hm hstep
    simp only [benchmarkLoop] at hstep ⊢
    rw [hm.session]
    split at hstep
    · rename_i hrunning
      obtain rfl := Option.some.inj hstep
      exact ⟨_, if_pos hrunning, hm.frame env⟩
    · cases hstep
  · constructor
    case samples => exact fun _ _ => rfl
    case once => exact fun sample hsample => by cases hsample
    case session | frameIndex | ways => rfl
    case camera | seenLast => exact fun _ => rfl

end

theorem modes_agree_gameFrame :
    ∃ h e, (benchmarkLoop recordMotion (gameOptions.inMode .kEager)).run (.start true [])
        [gameFrame] = some e ∧
      Matches h e ∧ h.camera.length = 2 ∧ e.camera = h.camera ∧
      h.samples.map (·.expensiveActions) = [1] ∧
      e.samples.map (·.expensiveActions) = [2] := by
  have hrun : (benchmarkLoop recordMotion (gameOptions.inMode .kHfior)).run (.start true [])
      [gameFrame] = some _ := rfl
  obtain ⟨e, he, hm⟩ := modes_agree hrun
  refine ⟨_, e, he, hm, by decide, hm.camera (by unfold NothingLost; decide), by decide, ?_⟩
  rw [hm.samples (by unfold NothingLost; decide) (by unfold Stamped; decide)]
  decide

end Hfior
