import Hfior.Game.Client
import Hfior.Library.Machine
import Mathlib.Algebra.BigOperators.Group.List.Basic
import Mathlib.Algebra.Order.Field.Rat

/-!
# The game benchmark

The main loop of `benchmarks/game/main.cc`, frame by frame.  A frame polls
the window events, connects the client if it must, reads the ring twice,
reacts to the motions, draws, and acknowledges.  The two modes differ in the
reaction only.

`Session` is what the loop decides its way by, and no function on it takes
the mode.  The camera is of any type, with any `applyMotion`, since its
arithmetic is in floating point.  For the same reason the two comparisons of
seconds are functions of the nanoseconds, and what `CullScene` counts is a
function of the camera.  The clock, the window and the compositor are in
`FrameEnvironment`.

The ghost list `frames` says of each frame how far it has come, which motions
its reads have written, and on which cameras the reaction graph has run.
-/

namespace Hfior

/-! ## Options and environment -/

inductive InputMode where
  | kEager | kHfior
deriving DecidableEq, Repr

/-- What the loop and `WriteResults` take from `struct Options`. -/
structure BenchmarkOptions where
  mode : InputMode
  /-- These nanoseconds reach `seconds`. -/
  reachesSeconds : UInt64 → Bool
  /-- These nanoseconds reach `warmup_seconds`. -/
  reachesWarmup : UInt64 → Bool
  requestedRateHz : UInt32

/-- A window event.  A `captured` is what `SDL_SetWindowRelativeMouseMode`
returns. -/
inductive WindowEvent where
  | quit
  | keyDown (repeated isQ : Bool)
  | focusGained (captured : Bool)
  | focusLost
  | mouseButtonDown (captured : Bool)
  | mouseMotion
  | other
deriving DecidableEq, Repr

/-- What a frame meets. -/
structure FrameEnvironment (α : Type*) where
  frameStartNs : UInt64
  events : List WindowEvent
  connect : ConnectEnv
  earlyDispatch : Dispatch
  earlyRing : RingHeader
  pixelWidth : Int32
  pixelHeight : Int32
  lateRing : RingHeader
  visibleObjects : α → UInt32
  usefulBoundaryNs : UInt64
  swap : Bool
  swapError : String
  flush : IoResult
  frameEndNs : UInt64

/-- `kMaximumRingRecords`. -/
def maximumRingRecords : UInt64 := 4096

section
variable {α : Type*} (env : FrameEnvironment α)

def FrameEnvironment.earlyRead : ReadEnv :=
  ⟨true, some env.earlyDispatch, env.earlyRing, some maximumRingRecords⟩

def FrameEnvironment.lateRead : ReadEnv :=
  ⟨true, none, env.lateRing, some maximumRingRecords⟩

/-- The window shows nothing. -/
def FrameEnvironment.hidden : Bool := env.pixelWidth ≤ 0 || env.pixelHeight ≤ 0

end

def BenchmarkOptions.inMode (o : BenchmarkOptions) (mode : InputMode) : BenchmarkOptions :=
  { o with mode := mode }

@[simp] theorem BenchmarkOptions.inMode_mode (o : BenchmarkOptions) (mode : InputMode) :
    (o.inMode mode).mode = mode := rfl

/-! ## State -/

/-- The variables that decide how the loop goes on. -/
structure Session where
  running : Bool
  captured : Bool
  integrityValid : Bool
  failure : String
  lastConnectAttemptNs : UInt64
  readySinceNs : UInt64
  measurementStartNs : UInt64
  measurementStarted : Bool
  /-- Ghost: how long the trace of the client was at the start of the
  measurement. -/
  measurementEntries : Nat
  client : GameClient
deriving DecidableEq, Repr

structure FrameSample where
  frame : UInt64
  startNs : UInt64
  frameNs : UInt64
  inputRecords : UInt64
  sdlMotionEvents : UInt64
  expensiveActions : UInt64
  sampleAgeNs : UInt64
  producerDrops : UInt64
  sequenceErrors : UInt64
  visibleObjects : UInt32
deriving DecidableEq, Repr

/-- What the reads of a frame have brought: the motions that the loops over
them see, and the variables of the frame. -/
structure FrameInput where
  early : List Motion
  late : List Motion
  inputRecords : UInt64
  newestInputTimestampNs : UInt64
  producerDrops : UInt64
  sequenceErrors : UInt64
deriving DecidableEq, Repr

/-- How far a frame has come. -/
inductive FrameStage where
  /-- Some event has ended the loop. -/
  | quit
  | earlyFault
  /-- The window shows nothing: `continue`. -/
  | hidden
  | lateFault
  | swapFault
  | acknowledgeFault
  | shown
deriving DecidableEq, Repr

structure FrameLog (α : Type*) where
  stage : FrameStage
  measured : Bool
  input : FrameInput
  /-- The cameras on which `UpdateCameraReactionGraph` has run. -/
  reactions : List α

structure Benchmark (α : Type*) where
  session : Session
  camera : α
  frameIndex : UInt64
  samples : List FrameSample
  frames : List (FrameLog α)

/-- The loop before its first frame. -/
def Benchmark.start {α : Type*} (captured : Bool) (camera : α) : Benchmark α where
  session := ⟨true, captured, true, "", 0, 0, 0, false, 0, .create⟩
  camera := camera
  frameIndex := 0
  samples := []
  frames := []

/-! ## Before the reads -/

namespace Session

variable (s : Session)

/-- An `integrity_valid = false` with its `failure`, which ends the loop. -/
def fail (failure : String) : Session :=
  { s with running := false, integrityValid := false, failure := failure }

def pollEvent : WindowEvent → Session
  | .quit => { s with running := false }
  | .keyDown repeated isQ => if !repeated && isQ then { s with running := false } else s
  | .focusGained captured => { s with captured := captured }
  | .focusLost =>
    let s := { s with captured := false }
    if s.measurementStarted then s.fail "window focus was lost during measurement" else s
  | .mouseButtonDown captured => if !s.captured then { s with captured := captured } else s
  | .mouseMotion => s
  | .other => s

/-- The loop of `SDL_PollEvent`. -/
def pollEvents (events : List WindowEvent) : Session := events.foldl pollEvent s

/-- The time is come for another `hfior_game_client_connect`. -/
def connectDue (frameStartNs : UInt64) : Bool :=
  s.captured && !s.client.isActive && frameStartNs - s.lastConnectAttemptNs ≥ 250000000

def connect (frameStartNs : UInt64) (env : ConnectEnv) : Session :=
  if s.connectDue frameStartNs then
    { s with
      lastConnectAttemptNs := frameStartNs
      client := (s.client.connect env).2 }
  else s

/-- `ready`. -/
def ready : Bool := s.captured && s.client.isActive

/-- The update of `ready_since_ns`. -/
def noteReady (frameStartNs : UInt64) : Session :=
  if s.ready then
    if s.readySinceNs == 0 then { s with readySinceNs := frameStartNs } else s
  else { s with readySinceNs := 0 }

/-- The start of the measurement behind the warmup. -/
def startMeasurement (o : BenchmarkOptions) (frameStartNs : UInt64) : Session :=
  if !s.measurementStarted && s.readySinceNs != 0 &&
      o.reachesWarmup (frameStartNs - s.readySinceNs) then
    { s with
      measurementStarted := true
      measurementStartNs := frameStartNs
      measurementEntries := s.client.trace.length }
  else s

end Session

/-! ## The reads -/

/-- A frame that has read nothing. -/
def FrameInput.empty : FrameInput := ⟨[], [], 0, 0, 0, 0⟩

/-- The motions that a loop up to `records` sees in the buffer. -/
def ReadResult.seen (r : ReadResult) : List Motion := r.motions.take r.batch.records.toNat

def FrameInput.ofEarly (early : ReadResult) : FrameInput where
  early := early.seen
  late := []
  inputRecords := early.batch.records
  newestInputTimestampNs := early.batch.newestTimestampNs
  producerDrops := early.batch.producerDrops
  sequenceErrors := early.batch.sequenceErrors

def FrameInput.addLate (input : FrameInput) (late : ReadResult) : FrameInput :=
  { input with
    late := late.seen
    inputRecords := input.inputRecords + late.batch.records
    newestInputTimestampNs :=
      if late.batch.newestTimestampNs != 0 then late.batch.newestTimestampNs
      else input.newestInputTimestampNs
    producerDrops := max input.producerDrops late.batch.producerDrops
    sequenceErrors := max input.sequenceErrors late.batch.sequenceErrors }

namespace Session

variable {α : Type*} (s : Session) (env : FrameEnvironment α)

/-- The early read.  Before the measurement its failure is no failure of the
benchmark.  The flag says whether the frame goes on. -/
def readEarly : Bool × FrameInput × Session :=
  if !s.client.isActive then (true, .empty, s)
  else
    let read := s.client.read env.earlyRead
    let s := { s with client := read.client }
    if read.ok then (true, .ofEarly read, s)
    else if s.measurementStarted then (false, .empty, s.fail s.client.errorText)
    else (true, .empty, s)

/-- The late read, of a client that the early one has left active. -/
def readLate (input : FrameInput) : Bool × FrameInput × Session :=
  if !s.client.isActive then (true, input, s)
  else
    let read := s.client.read env.lateRead
    let s := { s with client := read.client }
    if read.ok then (true, input.addLate read, s)
    else (false, input, s.fail s.client.errorText)

/-- The frame between the events and the early read. -/
def prepare (o : BenchmarkOptions) : Session :=
  ((s.connect env.frameStartNs env.connect).noteReady env.frameStartNs).startMeasurement o
    env.frameStartNs

/-- The frame up to the reaction.  Without a stage it goes on. -/
def takeInput (o : BenchmarkOptions) : Option FrameStage × FrameInput × Session :=
  let s := s.pollEvents env.events
  if !s.running then (some .quit, .empty, s)
  else
    let s := s.prepare env o
    let (ok, input, s) := s.readEarly env
    if !ok then (some .earlyFault, input, s)
    else if env.hidden then (some .hidden, input, s)
    else
      let (ok, input, s) := s.readLate env input
      (if ok then none else some .lateFault, input, s)

/-- The frame behind the drawing: the swap and the acknowledgement. -/
def present : FrameStage × Session :=
  if !env.swap then (.swapFault, s.fail ("SDL_GL_SwapWindow failed: " ++ env.swapError))
  else if !s.client.isActive then (.shown, s)
  else
    let (ok, client) := s.client.acknowledge env.flush
    let s := { s with client := client }
    if !ok then (.acknowledgeFault, s.fail s.client.errorText) else (.shown, s)

end Session

/-! ## The reaction -/

section
variable {α : Type*} (applyMotion : α → Motion → α)

/-- The cameras behind each of some motions. -/
def cameraPath (camera : α) : List Motion → List α
  | [] => []
  | motion :: motions =>
    applyMotion camera motion :: cameraPath (applyMotion camera motion) motions

/-- What a mode makes of the input: the camera, the cameras on which the
reaction graph has run, and the newest timestamp. -/
structure Reaction (α : Type*) where
  camera : α
  reactions : List α
  newestInputTimestampNs : UInt64

/-- The two loops of `InputMode::kEager`, which react to each motion. -/
def reactEager (camera : α) (input : FrameInput) : Reaction α :=
  let motions := input.early ++ input.late
  let camera' := motions.foldl applyMotion camera
  { camera := camera'
    reactions := cameraPath applyMotion camera motions ++
      if input.inputRecords == 0 then [camera'] else []
    newestInputTimestampNs :=
      motions.foldl (fun _ motion => motion.timestampNs) input.newestInputTimestampNs }

/-- The reaction of `InputMode::kHfior` to the late motions, which it makes
once.  The early ones are in the camera. -/
def reactHfior (camera : α) (input : FrameInput) : Reaction α :=
  let camera' := input.late.foldl applyMotion camera
  ⟨camera', [camera'], input.newestInputTimestampNs⟩

def react (mode : InputMode) (camera : α) (input : FrameInput) : Reaction α :=
  match mode with
  | .kEager => reactEager applyMotion camera input
  | .kHfior => reactHfior applyMotion camera input

/-- The loop behind the early read, which only `InputMode::kHfior` runs. -/
def applyEarly (mode : InputMode) (camera : α) (input : FrameInput) : α :=
  match mode with
  | .kEager => camera
  | .kHfior => input.early.foldl applyMotion camera

end

/-! ## The frame -/

/-- `sample_age_ns`. -/
def sampleAgeNs (newestInputTimestampNs usefulBoundaryNs : UInt64) : UInt64 :=
  if newestInputTimestampNs != 0 && usefulBoundaryNs ≥ newestInputTimestampNs then
    usefulBoundaryNs - newestInputTimestampNs
  else 0

/-- `sdl_motion_events`. -/
def motionEvents (events : List WindowEvent) : UInt64 :=
  UInt64.ofNat (events.countP (· == .mouseMotion))

namespace Benchmark

variable {α : Type*}

/-- The `samples.push_back`, and the end of the measurement. -/
def addSample (b : Benchmark α) (o : BenchmarkOptions) (env : FrameEnvironment α)
    (input : FrameInput) (reaction : Reaction α) : Benchmark α :=
  if b.session.measurementStarted then
    { b with
      frameIndex := b.frameIndex + 1
      samples := b.samples ++ [{
        frame := b.frameIndex
        startNs := env.frameStartNs
        frameNs := env.frameEndNs - env.frameStartNs
        inputRecords := input.inputRecords
        sdlMotionEvents := motionEvents env.events
        expensiveActions := UInt64.ofNat reaction.reactions.length
        sampleAgeNs := sampleAgeNs reaction.newestInputTimestampNs env.usefulBoundaryNs
        producerDrops := input.producerDrops
        sequenceErrors := input.sequenceErrors
        visibleObjects := env.visibleObjects reaction.camera }]
      session := { b.session with
        running := !o.reachesSeconds (env.frameEndNs - b.session.measurementStartNs) } }
  else b

/-- A frame that is over in front of the reaction. -/
def skip (applyMotion : α → Motion → α) (o : BenchmarkOptions) (b : Benchmark α)
    (stage : FrameStage) (input : FrameInput) (session : Session) : Benchmark α :=
  { b with
    session := session
    camera := applyEarly applyMotion o.mode b.camera input
    frames := b.frames ++ [⟨stage, session.measurementStarted, input, []⟩] }

/-- The reaction, the drawing, and the acknowledgement. -/
def draw (applyMotion : α → Motion → α) (o : BenchmarkOptions) (b : Benchmark α)
    (env : FrameEnvironment α) (input : FrameInput) (session : Session) : Benchmark α :=
  let reaction :=
    react applyMotion o.mode (applyEarly applyMotion o.mode b.camera input) input
  let (stage, session) := session.present env
  let b := { b with
    session := session
    camera := reaction.camera
    frames := b.frames ++ [⟨stage, session.measurementStarted, input, reaction.reactions⟩] }
  if stage = .shown then b.addSample o env input reaction else b

/-- One pass of the loop. -/
def frame (applyMotion : α → Motion → α) (o : BenchmarkOptions) (b : Benchmark α)
    (env : FrameEnvironment α) : Benchmark α :=
  match b.session.takeInput env o with
  | (some stage, input, session) => b.skip applyMotion o stage input session
  | (none, input, session) => b.draw applyMotion o env input session

end Benchmark

/-- `while (running)`, pass by pass. -/
def benchmarkLoop {α : Type*} (applyMotion : α → Motion → α) (o : BenchmarkOptions) :
    Machine (Benchmark α) (FrameEnvironment α) where
  step b env := if b.session.running then some (b.frame applyMotion o env) else none

/-! ## The result -/

namespace Benchmark

variable {α : Type*} (b : Benchmark α)

/-- The sum `records` of `WriteResults`. -/
def records : UInt64 := b.samples.foldl (fun n sample => n + sample.inputRecords) 0

/-- `measured_seconds`, an exact rational where the code has a double. -/
def measuredSeconds : ℚ :=
  (b.samples.map fun sample => (sample.frameNs.toNat : ℚ)).sum / 1000000000

/-- `records_per_second`, exact as well.  With `--seconds` at most 600 the
total `n` is below 2^40 ns.  The doubles move the rate by less than 2^-50 of
it, and a rate other than 5500 is further than that from 5500, at least
1 / (11 * n) of it.  So only a rate of exactly 5500 can be accepted here and
refused by the code. -/
def recordsPerSecond : ℚ :=
  if 0 < b.measuredSeconds then b.records.toNat / b.measuredSeconds else 0

/-- `high_rate_valid`. -/
def highRateValid (o : BenchmarkOptions) : Bool :=
  o.requestedRateHz < 5500 || 5500 ≤ b.recordsPerSecond

/-- What `WriteResults` returns. -/
def valid (o : BenchmarkOptions) : Bool :=
  b.session.integrityValid && b.highRateValid o && !b.samples.isEmpty

end Benchmark

/-! ## A measured frame -/

/-- A frame that connects to `gameRing`, reads its first record early and the
second one late, and measures from the start. -/
def gameFrame : FrameEnvironment (List Motion) where
  frameStartNs := 250000000
  events := [.mouseMotion]
  connect := grantedStream
  earlyDispatch := ⟨[], true⟩
  earlyRing := { gameRing with producer.head := 1 }
  pixelWidth := 1280
  pixelHeight := 720
  lateRing := gameRing
  visibleObjects := fun camera => UInt32.ofNat camera.length
  usefulBoundaryNs := 250000050
  swap := true
  swapError := ""
  flush := .done
  frameEndNs := 250000100

def gameOptions : BenchmarkOptions where
  mode := .kHfior
  reachesSeconds := fun _ => false
  reachesWarmup := fun _ => true
  requestedRateHz := 8000

/-- The camera that is the list of its motions. -/
def recordMotion (camera : List Motion) (motion : Motion) : List Motion := camera ++ [motion]

end Hfior
