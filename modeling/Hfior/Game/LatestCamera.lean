import Hfior.Game.Modes

/-!
# The camera of a late latch

In the late mode a frame draws the camera behind every record that was
committed when its last read loaded the head.  `Follows` says that a client
is at a position of a history that it can go on reading.  A read at an
observed head moves it there, and the acknowledgement keeps it.

The benchmark uses its client by the calls of `gameMachine` only
(`frame_moves`), so an active client of a run can follow a history, and
`latest_camera` is the statement for the frames behind it.
-/

namespace Hfior

/-! ## The calls of a frame -/

section
variable {α : Type*} (s : Session) (env : FrameEnvironment α) (o : BenchmarkOptions)

end

section
variable {α : Type*} {applyMotion : α → Motion → α} {o : BenchmarkOptions}
variable {b : Benchmark α}

end

/-! ## Following a history -/

/-- The client has read the history up to this position, and the rest of it
is in sequence. -/
structure Follows (capacity : UInt32) (log : List Record) (tail : Nat) (c : GameClient) :
    Prop where
  streaming : Streaming c
  capacity_eq : c.capacity = capacity
  localTail : c.localTail.toNat = tail
  inSequence : InSequence c.expectedSequence (log.drop tail)

section
variable {capacity : UInt32} {log : List Record} {tail : Nat} {c : GameClient}

theorem Follows.isActive (h : Follows capacity log tail c) : c.isActive = true := by
  simp [GameClient.isActive, h.streaming.active, h.streaming.faulted]

/-- A read delivers the history up to its head. -/
theorem Follows.read (h : Follows capacity log tail c) {env : ReadEnv}
    (hobserves : Observes capacity log tail env) :
    Delivers c env (slice log tail env.ring.producer.head.toNat) ∧
      Follows capacity log env.ring.producer.head.toNat (c.read env).client := by
  obtain ⟨hstreaming, rfl, rfl, hsequence⟩ := h
  have hcut := slice_append_drop (l := log) hobserves.tail_le
  rw [← hcut, inSequence_append] at hsequence
  have hread := read_observed hstreaming hobserves hsequence.1
  refine ⟨hread, hread.streaming, hread.capacity, ?_, ?_⟩
  · rw [hread.localTail]
  · rw [hread.expectedSequence]
    exact hsequence.2

theorem Follows.acknowledge (h : Follows capacity log tail c) {flush : IoResult}
    (hok : (c.acknowledge flush).1 = true) :
    Follows capacity log tail (c.acknowledge flush).2 := by
  obtain ⟨⟨hactive, hfaulted, hheader, hcapacity⟩, rfl, rfl, hsequence⟩ := h
  unfold GameClient.acknowledge at hok ⊢
  split
  · exact ⟨⟨hactive, hfaulted, hheader, hcapacity⟩, rfl, rfl, hsequence⟩
  rename_i hready
  rw [if_neg hready] at hok
  split
  · exact ⟨⟨hactive, hfaulted, hheader, hcapacity⟩, rfl, rfl, hsequence⟩
  rename_i hbehind
  rw [if_neg hbehind] at hok
  cases flush with
  | done => exact ⟨⟨hactive, hfaulted, hheader, hcapacity⟩, rfl, rfl, hsequence⟩
  | failed errno =>
    cases errno with
    | EAGAIN => exact ⟨⟨hactive, hfaulted, hheader, hcapacity⟩, rfl, rfl, hsequence⟩
    | _ => cases hok

end

/-! ## The reads of a frame -/

section
variable {α : Type*}

/-- The last head that a frame sees. -/
def FrameEnvironment.lastHead (env : FrameEnvironment α) : Nat :=
  if env.hidden then env.earlyRing.producer.head.toNat else env.lateRing.producer.head.toNat

/-- The reads of a frame at this tail observe the history. -/
structure FrameObserves (capacity : UInt32) (log : List Record) (tail : Nat)
    (env : FrameEnvironment α) : Prop where
  early : Observes capacity log tail env.earlyRead
  late : env.hidden = false →
    Observes capacity log env.earlyRing.producer.head.toNat env.lateRead

/-- Each frame observes the history at the head that the one before it has
seen last. -/
def FramesObserve (capacity : UInt32) (log : List Record) :
    Nat → List (FrameEnvironment α) → Prop
  | _, [] => True
  | tail, env :: envs => FrameObserves capacity log tail env ∧
    FramesObserve capacity log env.lastHead envs

variable {capacity : UInt32} {log : List Record} {tail : Nat} {s : Session}
variable {env : FrameEnvironment α}

/-- An active client is not connected again. -/
theorem client_prepare (h : s.client.isActive = true) (o : BenchmarkOptions) :
    (s.prepare env o).client = s.client := by
  rw [Session.prepare, client_startMeasurement, client_noteReady, Session.connect]
  have hidle : ¬ s.connectDue env.frameStartNs = true := by simp [Session.connectDue, h]
  rw [if_neg hidle]

theorem Delivers.seen {c : GameClient} {read : ReadEnv} {records : List Record}
    (h : Delivers c read records) : (c.read read).seen = records.map Record.motion := by
  rw [ReadResult.seen, h.motions, h.count]
  exact List.take_of_length_le (by simp)

theorem readEarly_follows (h : Follows capacity log tail s.client)
    (henv : Observes capacity log tail env.earlyRead) :
    (s.readEarly env).1 = true ∧
      Follows capacity log env.earlyRing.producer.head.toNat (s.readEarly env).2.2.client ∧
      (s.readEarly env).2.1.motions =
        (slice log tail env.earlyRing.producer.head.toNat).map Record.motion := by
  obtain ⟨hread, hfollows⟩ := h.read henv
  have hidle : ¬ (!s.client.isActive) = true := by simp [h.isActive]
  rw [Session.readEarly, if_neg hidle]
  dsimp only
  rw [if_pos hread.ok]
  refine ⟨rfl, hfollows, ?_⟩
  simp only [FrameInput.motions, FrameInput.ofEarly, hread.seen, List.append_nil]
  rfl

theorem readLate_follows {input : FrameInput} (hlate : input.late = [])
    (h : Follows capacity log tail s.client)
    (henv : Observes capacity log tail env.lateRead) :
    (s.readLate env input).1 = true ∧
      Follows capacity log env.lateRing.producer.head.toNat (s.readLate env input).2.2.client ∧
      (s.readLate env input).2.1.motions = input.motions ++
        (slice log tail env.lateRing.producer.head.toNat).map Record.motion := by
  obtain ⟨hread, hfollows⟩ := h.read henv
  have hidle : ¬ (!s.client.isActive) = true := by simp [h.isActive]
  rw [Session.readLate, if_neg hidle]
  dsimp only
  rw [if_pos hread.ok]
  refine ⟨rfl, hfollows, ?_⟩
  simp only [FrameInput.motions, FrameInput.addLate, hlate, hread.seen, List.append_nil]
  rfl

/-- A frame that no event ends reads the history up to its last head. -/
theorem takeInput_follows (h : Follows capacity log tail s.client)
    (henv : FrameObserves capacity log tail env) (o : BenchmarkOptions) :
    (s.takeInput env o).1 = some .quit ∧ (s.takeInput env o).2.1 = .empty ∧
        (s.takeInput env o).2.2.running = false ∨
      tail ≤ env.lastHead ∧
        Follows capacity log env.lastHead (s.takeInput env o).2.2.client ∧
        (s.takeInput env o).2.1.motions =
          (slice log tail env.lastHead).map Record.motion ∧
        (s.takeInput env o).1 = if env.hidden then some .hidden else none := by
  have hclient : ((s.pollEvents env.events).prepare env o).client = s.client := by
    rw [client_prepare _ o, client_pollEvents]
    rw [client_pollEvents]
    exact h.isActive
  unfold Session.takeInput
  dsimp only
  split
  · rename_i hquit
    rw [Bool.not_eq_true'] at hquit
    exact .inl ⟨rfl, rfl, hquit⟩
  right
  rw [← hclient] at h
  generalize (s.pollEvents env.events).prepare env o = s' at h ⊢
  obtain ⟨hok, hfollows, hmotions⟩ := readEarly_follows h henv.early
  have hlate := (readEarly_brings s' env).2
  have hearly : tail ≤ env.earlyRing.producer.head.toNat := henv.early.tail_le
  rw [if_neg (by simp [hok])]
  cases hhidden : env.hidden with
  | true =>
    simp only [FrameEnvironment.lastHead, hhidden, if_true]
    exact ⟨hearly, hfollows, hmotions, trivial⟩
  | false =>
    obtain ⟨hok', hfollows', hmotions'⟩ :=
      readLate_follows hlate hfollows (henv.late hhidden)
    have hle : env.earlyRing.producer.head.toNat ≤ env.lateRing.producer.head.toNat :=
      (henv.late hhidden).tail_le
    simp only [FrameEnvironment.lastHead, hhidden, if_false, Bool.false_eq_true]
    refine ⟨hearly.trans hle, hfollows', ?_, by rw [if_pos hok']⟩
    rw [hmotions', hmotions, ← List.map_append, slice_append_slice hearly hle]

/-- The presentation keeps the position, or it ends the loop. -/
theorem present_follows (env : FrameEnvironment α) (h : Follows capacity log tail s.client) :
    Follows capacity log tail (s.present env).2.client ∨
      (s.present env).2.running = false ∧ (s.present env).1 ≠ .shown := by
  unfold Session.present
  split
  · exact .inr ⟨rfl, nofun⟩
  split
  · exact .inl h
  dsimp only
  split
  · exact .inr ⟨rfl, nofun⟩
  · rename_i hok
    rw [Bool.not_eq_true', Bool.not_eq_false] at hok
    exact .inl (h.acknowledge hok)

end

/-! ## The cameras of a run -/

section
variable {α : Type*} {applyMotion : α → Motion → α} {o : BenchmarkOptions}
variable {capacity : UInt32} {log : List Record} {first tail : Nat} {camera : α}
variable {b : Benchmark α}

/-- The camera behind the history from one position to another. -/
def cameraBehind (applyMotion : α → Motion → α) (log : List Record) (camera : α)
    (first last : Nat) : α :=
  ((slice log first last).map Record.motion).foldl applyMotion camera

theorem cameraBehind_trans {middle last : Nat} (h : first ≤ middle)
    (h' : middle ≤ last) :
    cameraBehind applyMotion log (cameraBehind applyMotion log camera first middle) middle last =
      cameraBehind applyMotion log camera first last := by
  rw [cameraBehind, cameraBehind, cameraBehind, ← List.foldl_append, ← List.map_append,
    slice_append_slice h h']

/-- A frame does not fail before the drawing, and it draws the camera behind
the history up to its last head. -/
structure DrawsBehind (applyMotion : α → Motion → α) (log : List Record) (camera : α)
    (first : Nat) (f : FrameLog α) (env : FrameEnvironment α) : Prop where
  stage : f.stage.drawn = true ∨ f.stage = .hidden ∨ f.stage = .quit
  camera_eq : f.stage.drawn = true →
    f.seenLast = some (cameraBehind applyMotion log camera first env.lastHead)

/-- The state at a position of the history, with the camera behind it. -/
structure FollowsFrom (applyMotion : α → Motion → α) (capacity : UInt32) (log : List Record)
    (camera : α) (first tail : Nat) (b : Benchmark α) : Prop where
  client : Follows capacity log tail b.session.client
  le : first ≤ tail
  camera_eq : b.camera = cameraBehind applyMotion log camera first tail

/-- The drawing goes on only if the presentation has kept the position. -/
theorem draw_follows {env : FrameEnvironment α} {input : FrameInput} {session : Session}
    (h : Follows capacity log tail session.client)
    (hrunning : (b.draw applyMotion o env input session).session.running = true) :
    Follows capacity log tail (b.draw applyMotion o env input session).session.client := by
  rw [(draw_session applyMotion o b env input session).1]
  rcases present_follows env h with hfollows | ⟨hstopped, hfault⟩
  · exact hfollows
  · unfold Benchmark.draw at hrunning
    dsimp only at hrunning
    rw [if_neg hfault] at hrunning
    rw [hstopped] at hrunning
    cases hrunning

/-- One frame of the late mode at a position of the history. -/
theorem FollowsFrom.frame (hmode : o.mode = .kHfior)
    (h : FollowsFrom applyMotion capacity log camera first tail b) {env : FrameEnvironment α}
    (henv : FrameObserves capacity log tail env) :
    ∃ f, (b.frame applyMotion o env).frames = b.frames ++ [f] ∧
      DrawsBehind applyMotion log camera first f env ∧
      ((b.frame applyMotion o env).session.running = true →
        FollowsFrom applyMotion capacity log camera first env.lastHead
          (b.frame applyMotion o env)) := by
  have htake := takeInput_follows h.client henv o
  obtain ⟨hbrings, hended⟩ := takeInput_brings b.session env o
  unfold Benchmark.frame
  generalize b.session.takeInput env o = taken at htake hbrings hended ⊢
  obtain ⟨ended, input, session⟩ := taken
  rcases htake with ⟨hquit, -, hstopped⟩ | ⟨hle, hfollows, hmotions, hstage⟩
  · dsimp only at hquit hstopped
    subst hquit
    refine ⟨_, rfl, ⟨.inr (.inr rfl), nofun⟩, ?_⟩
    intro hrunning
    rw [show (b.skip applyMotion o .quit input session).session.running = false from hstopped]
      at hrunning
    cases hrunning
  dsimp only at hfollows hmotions hstage
  have hcamera : input.motions.foldl applyMotion b.camera =
      cameraBehind applyMotion log camera first env.lastHead := by
    rw [hmotions, h.camera_eq, ← cameraBehind, cameraBehind_trans h.le hle]
  cases hhidden : env.hidden with
  | true =>
    rw [hhidden, if_pos rfl] at hstage
    subst hstage
    have hlate : input.late = [] := (hended .hidden rfl).2
    refine ⟨_, rfl, ⟨.inr (.inl rfl), nofun⟩, fun _ => ⟨hfollows, h.le.trans hle, ?_⟩⟩
    rw [← hcamera, FrameInput.motions, hlate, List.append_nil]
    simp [Benchmark.skip, applyEarly, hmode]
  | false =>
    rw [hhidden, if_neg (by decide)] at hstage
    subst hstage
    obtain ⟨-, hframes, hdrawn⟩ := draw_session applyMotion o b env input session
    refine ⟨_, hframes, ⟨.inl (present_delivered session env).2, fun _ => ?_⟩, ?_⟩
    · rw [FrameLog.seenLast, react_getLast? _ hbrings.count, react_camera, hcamera]
    · intro hrunning
      refine ⟨draw_follows hfollows hrunning, h.le.trans hle, ?_⟩
      rw [← hcamera]
      exact hdrawn

/-- The frames of a run that follows a history. -/
theorem FollowsFrom.run (hmode : o.mode = .kHfior) {envs : List (FrameEnvironment α)}
    {b' : Benchmark α} (h : FollowsFrom applyMotion capacity log camera first tail b)
    (hobserve : FramesObserve capacity log tail envs)
    (hrun : (benchmarkLoop applyMotion o).run b envs = some b') :
    ∃ frames, b'.frames = b.frames ++ frames ∧
      List.Forall₂ (DrawsBehind applyMotion log camera first) frames envs := by
  induction envs generalizing b tail with
  | nil =>
    cases hrun
    exact ⟨[], (List.append_nil _).symm, .nil⟩
  | cons env envs ih =>
    obtain ⟨henv, hrest⟩ := hobserve
    obtain ⟨next, hstep, hrun⟩ := Machine.run_cons.1 hrun
    simp only [benchmarkLoop] at hstep
    split at hstep
    · obtain rfl := Option.some.inj hstep
      obtain ⟨f, hframes, hdraws, hnext⟩ := h.frame hmode henv
      cases hrunning : (b.frame applyMotion o env).session.running with
      | true =>
        obtain ⟨frames, hlast, hall⟩ := ih (hnext hrunning) hrest hrun
        refine ⟨f :: frames, ?_, .cons hdraws hall⟩
        rw [hlast, hframes, List.append_assoc]
        rfl
      | false =>
        -- The loop is over, so there are no more frames.
        cases envs with
        | nil =>
          cases hrun
          exact ⟨[f], hframes, .cons hdraws .nil⟩
        | cons env' envs =>
          obtain ⟨next, hstep, -⟩ := Machine.run_cons.1 hrun
          simp [benchmarkLoop, hrunning] at hstep
    · cases hstep

end

end Hfior
