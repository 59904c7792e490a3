import Hfior.Game.Moves

/-!
# The memory that the game client touches

`stream_active` maps the ring and checks its geometry, and
`hfior_game_client_read` uses it later, in other calls.  `GameSession` is the
client with the mapping that it holds, which only `stream_active` and
`hfior_game_client_disconnect` change.

`readSlots` lists the slots that a read copies, and `read_of_slots` says that
it depends on no others.  `SessionInv` says that an active client holds a
mapping that fits its capacity, and `game_reads_inside` is what follows for
every read of every run.
-/

namespace Hfior

/-! ## The mapping -/

/-- The bytes that `stream_active` has mapped, and the metadata at their
start, which nobody changes any more. -/
structure GameMapping where
  size : UInt32
  metadata : RingMetadata
deriving DecidableEq, Repr

/-- The mapping that an event stores in the client. -/
def QueueEvent.mapping : QueueEvent → Option GameMapping
  | .active a => match a.mapped with
    | some header =>
      if a.boundsValid && a.headerValid header then some ⟨a.mappingSize, header.metadata⟩
      else none
    | none => none
  | _ => none

/-- The client with its mapping. -/
structure GameSession where
  client : GameClient
  mapping : Option GameMapping

namespace GameClient

/-- The client behind the registry roundtrip of a `connect`. -/
def boundClient (c : GameClient) (env : ConnectEnv) : GameClient :=
  env.globals.foldl (fun c g => c.registryGlobal g.1 g.2) { c.disconnect with
    faulted := false, error := "", queue := env.queue, registry := env.registry }

/-- The client when the activation roundtrip of a `connect` starts, if it
starts. -/
def connectClient (c : GameClient) (env : ConnectEnv) : Option GameClient :=
  if env.queue && env.wrapper && env.registry && env.registryRoundtrip &&
      (c.boundClient env).manager && (c.boundClient env).seat && env.stream then
    some { c.boundClient env with stream := env.stream }
  else none

/-- The client when a read loads the head, if it comes that far. -/
def readClient (c : GameClient) (env : ReadEnv) : Option GameClient :=
  if !env.batch || !c.active || !c.header then none
  else match env.dispatch with
    | none => some c
    | some dispatch => if dispatch.succeeds then some (c.handleAll dispatch.events) else none

/-- The tests of a read between the head load and the copy loop. -/
def copies (c : GameClient) (env : ReadEnv) : Bool :=
  let head := env.ring.producer.head
  c.active && !c.faulted && env.ring.producer.droppedNewest == 0 &&
    !(head < c.localTail || head - c.localTail > c.capacity.toUInt64) &&
    !env.motionCapacity.any fun motionCapacity => head - c.localTail > motionCapacity

end GameClient

/-- The number of records that the copy loop looks at. -/
def copySteps (expected : UInt64) : List Record → Nat
  | [] => 0
  | record :: rest =>
    if sequenceError expected record.sequence then 1
    else copySteps (record.sequence + 1) rest + 1

namespace GameClient

/-- The slots that the copy loop reads, in order. -/
def loopSlots (c : GameClient) (env : ReadEnv) : List Nat :=
  let available := (env.ring.producer.head - c.localTail).toNat
  let records := slotsFrom env.ring.records c.capacity c.localTail available
  (List.range (copySteps c.expectedSequence records)).map fun i =>
    slotIndex c.capacity (c.localTail + UInt64.ofNat i)

/-- The slots that a read copies. -/
def readSlots (c : GameClient) (env : ReadEnv) : List Nat :=
  match c.readClient env with
  | none => []
  | some c => if c.copies env then c.loopSlots env else []

end GameClient

namespace GameSession

variable (s : GameSession)

/-- The listener of an event. -/
def handle (event : QueueEvent) : GameSession :=
  ⟨s.client.handle event, event.mapping.or s.mapping⟩

def handleAll (events : List QueueEvent) : GameSession := events.foldl handle s

/-- The session behind a call. -/
def after : GameCall → GameSession
  | .event event => s.handle event
  | .connect env =>
    ⟨(s.client.connect env).2,
      if !env.waylandDisplay || !env.waylandSurface then s.mapping
      else match s.client.connectClient env with
        | none => none
        | some c => (handleAll ⟨c, none⟩ env.activation.events).mapping⟩
  | .disconnect => ⟨s.client.disconnect, none⟩
  | .read env =>
    ⟨(s.client.read env).client, (s.handleAll (s.client.dispatched env)).mapping⟩
  | .acknowledge flush => ⟨(s.client.acknowledge flush).2, s.mapping⟩

end GameSession

/-- The session under any calls. -/
def sessionMachine : Machine GameSession GameCall where
  step s call := some (s.after call)

/-- A session is a client of `gameMachine` with a mapping. -/
theorem session_client (s : GameSession) (call : GameCall) :
    (s.after call).client = s.client.after call := by
  cases call <;> rfl

/-! ## The slots of a read -/

section
variable {c : GameClient} {env : ReadEnv}

theorem readRing_of_copies (h : c.copies env = true) :
    c.readRing env =
      c.copyRecords env.ring env.ring.producer.head env.motionCapacity.isSome := by
  simp only [GameClient.copies, Bool.and_eq_true, Bool.not_eq_true', beq_iff_eq] at h
  obtain ⟨⟨⟨⟨hactive, hfaulted⟩, hdrops⟩, hbounds⟩, hmotions⟩ := h
  simp [GameClient.readRing, hactive, hfaulted, hdrops, hbounds, hmotions]

/-- A read that does not come to its copy loop writes nothing, and does not
depend on the records. -/
theorem readRing_of_not_copies (h : c.copies env = false) (records : Nat → Record) :
    (c.readRing env).motions = [] ∧
      c.readRing { env with ring := { env.ring with records := records } } =
        c.readRing env := by
  unfold GameClient.readRing
  dsimp only
  split
  · exact ⟨rfl, rfl⟩
  rename_i hready
  split
  · exact ⟨rfl, rfl⟩
  rename_i hdrops
  split
  · exact ⟨rfl, rfl⟩
  rename_i hbounds
  split
  · exact ⟨rfl, rfl⟩
  rename_i hmotions
  have hcopies : c.copies env = true := by
    simp only [Bool.or_eq_true, Bool.not_eq_true', not_or, Bool.not_eq_false,
      Bool.not_eq_true, bne_iff_ne, Decidable.not_not] at hready hdrops
    rw [Bool.not_eq_true] at hbounds hmotions
    simp [GameClient.copies, hready.1, hready.2, hdrops, hbounds, hmotions]
  rw [hcopies] at h
  cases h

/-- A read that does not come to its head load writes nothing, and does not
depend on the ring. -/
theorem read_of_readClient_none (h : c.readClient env = none) (ring : RingHeader) :
    (c.read env).motions = [] ∧ c.read { env with ring := ring } = c.read env := by
  unfold GameClient.read
  unfold GameClient.readClient at h
  dsimp only
  by_cases hbatch : env.batch = true
  · by_cases hready : (!c.active || !c.header) = true
    · simp [hbatch, hready, GameClient.readFailed]
    · simp only [hbatch, hready, Bool.not_true, Bool.false_or, Bool.false_eq_true, if_false]
        at h ⊢
      cases hdispatch : env.dispatch with
      | none => simp [hdispatch] at h
      | some dispatch =>
        have hfails : dispatch.succeeds = false := by simpa [hdispatch] using h
        simp [hfails, GameClient.readFailed]
  · simp [hbatch, GameClient.readFailed]

theorem read_of_readClient {c' : GameClient} (h : c.readClient env = some c') :
    c.read env = c'.readRing env ∧ c' = c.handleAll (c.dispatched env) := by
  unfold GameClient.readClient at h
  split at h
  · cases h
  rename_i hready
  simp only [Bool.or_eq_true, Bool.not_eq_true', not_or, Bool.not_eq_false] at hready
  obtain ⟨⟨hbatch, hactive⟩, hheader⟩ := hready
  cases hdispatch : env.dispatch with
  | none =>
    rw [hdispatch] at h
    obtain rfl := Option.some.inj h
    simp [GameClient.read, GameClient.dispatched, hbatch, hactive, hheader, hdispatch,
      GameClient.handleAll]
  | some dispatch =>
    simp only [hdispatch] at h
    split at h
    · rename_i hsucceeds
      obtain rfl := Option.some.inj h
      simp [GameClient.read, GameClient.dispatched, hbatch, hactive, hheader, hdispatch,
        hsucceeds]
    · cases h

/-- The loop looks at no more records than there are. -/
theorem copySteps_le (expected : UInt64) (records : List Record) :
    copySteps expected records ≤ records.length := by
  induction records generalizing expected with
  | nil => exact Nat.le_refl 0
  | cons record records ih =>
    rw [copySteps, List.length_cons]
    split
    · omega
    · have := ih (record.sequence + 1)
      omega

/-- The loop writes at most one motion for each record that it looks at. -/
theorem CopyLoop.run_motions (l : CopyLoop) (records : List Record) :
    (l.run records).2.motions.length ≤ l.motions.length + copySteps l.expected records := by
  induction records generalizing l with
  | nil => exact Nat.le_refl _
  | cons record records ih =>
    rw [CopyLoop.run, copySteps]
    split
    · exact Nat.le_add_right _ _
    · refine (ih _).trans ?_
      simp only [List.length_append, List.length_singleton]
      omega

/-- The slots of a copy loop that starts. -/
theorem loopSlots_spec (h : c.copies env = true) :
    (c.loopSlots env).length ≤ c.capacity.toNat ∧
      (∀ slot ∈ c.loopSlots env, ∃ position, slot = slotIndex c.capacity position) ∧
      (∀ motionCapacity, env.motionCapacity = some motionCapacity →
        (c.loopSlots env).length ≤ motionCapacity.toNat) := by
  simp only [GameClient.copies, Bool.and_eq_true, Bool.not_eq_true', beq_iff_eq,
    Bool.or_eq_false_iff, decide_eq_false_iff_not, UInt64.not_lt] at h
  obtain ⟨⟨-, -, hdepth⟩, hmotions⟩ := h
  have hlength : (c.loopSlots env).length ≤ (env.ring.producer.head - c.localTail).toNat := by
    rw [GameClient.loopSlots, List.length_map, List.length_range]
    apply (copySteps_le _ _).trans
    rw [slotsFrom_length]
  refine ⟨?_, ?_, ?_⟩
  · have := UInt64.le_iff_toNat_le.1 hdepth
    rw [UInt32.toNat_toUInt64] at this
    omega
  · intro slot hslot
    obtain ⟨i, -, rfl⟩ := List.mem_map.1 hslot
    exact ⟨_, rfl⟩
  · intro motionCapacity hsome
    rw [hsome] at hmotions
    have hle : env.ring.producer.head - c.localTail ≤ motionCapacity := by
      simpa using hmotions
    have := UInt64.le_iff_toNat_le.1 hle
    omega

theorem copyRecords_motions (c : GameClient) (ring : RingHeader) (head : UInt64)
    (writes : Bool) :
    (c.copyRecords ring head writes).motions = if writes then
      (CopyLoop.run ⟨c.expectedSequence, 0, 0, 0, []⟩ (slotsFrom ring.records c.capacity
        c.localTail (head - c.localTail).toNat)).2.motions else [] := by
  unfold GameClient.copyRecords
  dsimp only
  split <;> rfl

/-- A read writes no more motions than slots that it copies, and none
without a buffer. -/
theorem read_motions (c : GameClient) (env : ReadEnv) :
    (c.read env).motions.length ≤ (c.readSlots env).length ∧
      (env.motionCapacity = none → (c.read env).motions = []) := by
  cases hclient : c.readClient env with
  | none =>
    rw [(read_of_readClient_none hclient env.ring).1]
    exact ⟨Nat.zero_le _, fun _ => rfl⟩
  | some c' =>
    rw [(read_of_readClient hclient).1, GameClient.readSlots, hclient]
    cases hcopies : c'.copies env with
    | false =>
      rw [(readRing_of_not_copies hcopies env.ring.records).1]
      exact ⟨Nat.zero_le _, fun _ => rfl⟩
    | true =>
      rw [readRing_of_copies hcopies, copyRecords_motions]
      constructor
      · have hmotions := CopyLoop.run_motions ⟨c'.expectedSequence, 0, 0, 0, []⟩
          (slotsFrom env.ring.records c'.capacity c'.localTail
            (env.ring.producer.head - c'.localTail).toNat)
        have hslots : (c'.loopSlots env).length = copySteps c'.expectedSequence
            (slotsFrom env.ring.records c'.capacity c'.localTail
              (env.ring.producer.head - c'.localTail).toNat) := by
          rw [GameClient.loopSlots, List.length_map, List.length_range]
        dsimp only
        rw [if_pos hcopies, hslots]
        split
        · simpa using hmotions
        · exact Nat.zero_le _
      · intro hnone
        rw [hnone]
        rfl

end

/-! ## Nothing but these slots -/

/-- The loop does not depend on the records that it does not look at. -/
theorem CopyLoop.run_eq (l : CopyLoop) (records records' : List Record)
    (hlength : records.length = records'.length)
    (h : ∀ i < copySteps l.expected records, records[i]? = records'[i]?) :
    l.run records = l.run records' ∧ ((l.run records).1 = true → records = records') := by
  induction records generalizing l records' with
  | nil =>
    rw [List.eq_nil_of_length_eq_zero hlength.symm]
    exact ⟨rfl, fun _ => rfl⟩
  | cons record records ih =>
    cases records' with
    | nil => simp at hlength
    | cons record' records' =>
      rw [copySteps] at h
      have hfirst : record = record' := by
        have h0 := h 0 (by split <;> omega)
        simpa using h0
      subst hfirst
      simp only [CopyLoop.run]
      by_cases herror : sequenceError l.expected record.sequence = true
      · rw [if_pos herror, if_pos herror]
        exact ⟨rfl, fun hdone => absurd hdone Bool.false_ne_true⟩
      · rw [if_neg herror] at h
        rw [if_neg herror, if_neg herror]
        have hrest := ih (CopyLoop.mk (record.sequence + 1) (l.dx + record.dx.toInt64)
          (l.dy + record.dy.toInt64) record.timestampNs (l.motions ++ [record.motion])) records'
          (Nat.succ.inj hlength) (fun i hi => by simpa using h (i + 1) (Nat.succ_lt_succ hi))
        exact ⟨hrest.1, fun hdone => congrArg _ (hrest.2 hdone)⟩

theorem slotsFrom_get (records : Nat → Record) (capacity : UInt32) (first : UInt64)
    {count i : Nat} (h : i < count) : (slotsFrom records capacity first count)[i]? =
      some (records (slotIndex capacity (first + UInt64.ofNat i))) := by
  simp [slotsFrom, h]

theorem copyRecords_congr {c : GameClient} {ring : RingHeader} {records : Nat → Record}
    {head : UInt64} {writes : Bool}
    (hrun : CopyLoop.run ⟨c.expectedSequence, 0, 0, 0, []⟩
        (slotsFrom ring.records c.capacity c.localTail (head - c.localTail).toNat) =
      CopyLoop.run ⟨c.expectedSequence, 0, 0, 0, []⟩
        (slotsFrom records c.capacity c.localTail (head - c.localTail).toNat))
    (hdone : (CopyLoop.run ⟨c.expectedSequence, 0, 0, 0, []⟩
        (slotsFrom ring.records c.capacity c.localTail (head - c.localTail).toNat)).1 = true →
      slotsFrom ring.records c.capacity c.localTail (head - c.localTail).toNat =
        slotsFrom records c.capacity c.localTail (head - c.localTail).toNat) :
    c.copyRecords { ring with records := records } head writes =
      c.copyRecords ring head writes := by
  unfold GameClient.copyRecords
  dsimp only
  rw [← hrun]
  split
  · rfl
  · rename_i hcomplete
    rw [Bool.not_eq_true', Bool.not_eq_false] at hcomplete
    rw [hdone hcomplete]

/-- A read depends on no record but those in its slots. -/
theorem read_of_slots (c : GameClient) (env : ReadEnv) (records : Nat → Record)
    (h : ∀ slot ∈ c.readSlots env, records slot = env.ring.records slot) :
    c.read { env with ring := { env.ring with records := records } } = c.read env := by
  cases hclient : c.readClient env with
  | none => exact (read_of_readClient_none hclient _).2
  | some c' =>
    have hclient' : c.readClient { env with ring := { env.ring with records := records } } =
        some c' := hclient
    rw [(read_of_readClient hclient).1, (read_of_readClient hclient').1]
    cases hcopies : c'.copies env with
    | false => exact (readRing_of_not_copies hcopies records).2
    | true =>
      have hcopies' : c'.copies { env with ring := { env.ring with records := records } } =
          true := hcopies
      rw [readRing_of_copies hcopies, readRing_of_copies hcopies']
      have hslots : c.readSlots env = c'.loopSlots env := by
        rw [GameClient.readSlots, hclient]
        exact if_pos hcopies
      rw [hslots] at h
      have hloop := CopyLoop.run_eq ⟨c'.expectedSequence, 0, 0, 0, []⟩
        (slotsFrom env.ring.records c'.capacity c'.localTail
          (env.ring.producer.head - c'.localTail).toNat)
        (slotsFrom records c'.capacity c'.localTail
          (env.ring.producer.head - c'.localTail).toNat)
        (by rw [slotsFrom_length, slotsFrom_length]) ?_
      · exact copyRecords_congr hloop.1 hloop.2
      · intro i hi
        have hcount := copySteps_le c'.expectedSequence (slotsFrom env.ring.records c'.capacity
          c'.localTail (env.ring.producer.head - c'.localTail).toNat)
        rw [slotsFrom_length] at hcount
        rw [slotsFrom_get _ _ _ (hi.trans_le hcount), slotsFrom_get _ _ _ (hi.trans_le hcount)]
        exact congrArg some (h _ (List.mem_map.2 ⟨i, List.mem_range.2 hi, rfl⟩)).symm

/-! ## The invariant of a session -/

/-- The mapping holds a ring of this capacity. -/
structure GameMapping.Fits (m : GameMapping) (capacity : UInt32) : Prop where
  headerSize : m.metadata.headerSize = UInt32.ofNat sizeofRingHeader
  sameCapacity : m.metadata.capacity = capacity
  pow2 : isPowerOfTwoU32 capacity = true
  size : (Hfior.mappingSize capacity).toNat ≤ m.size.toNat

/-- An active client holds a mapping that fits its capacity. -/
def SessionInv (s : GameSession) : Prop :=
  s.client.active = true → ∃ m, s.mapping = some m ∧ m.Fits s.client.capacity

/-- The checks of `stream_active` on the geometry. -/
theorem fits_of_valid {a : Activation} {header : RingHeader} (hbounds : a.boundsValid = true)
    (hheader : a.headerValid header = true) :
    GameMapping.Fits ⟨a.mappingSize, header.metadata⟩ a.capacity := by
  simp only [Activation.boundsValid, Bool.not_eq_true', Bool.or_eq_false_iff,
    Bool.not_eq_false', decide_eq_false_iff_not, UInt64.not_lt] at hbounds
  simp only [Activation.headerValid, Bool.and_eq_true, beq_iff_eq] at hheader
  obtain ⟨⟨⟨⟨-, hpow2⟩, -⟩, hrequired⟩, -⟩ := hbounds
  obtain ⟨⟨⟨⟨⟨⟨-, hsize⟩, -⟩, hcapacity⟩, -⟩, -⟩, -⟩ := hheader
  refine ⟨hsize, hcapacity, hpow2, ?_⟩
  rw [requiredSize, if_pos hpow2, UInt64.le_iff_toNat_le, UInt32.toNat_toUInt64] at hrequired
  exact hrequired

theorem registryGlobal_frame (c : GameClient) (name : GlobalInterface) (bound : Bool) :
    (c.registryGlobal name bound).active = c.active ∧
      (c.registryGlobal name bound).capacity = c.capacity := by
  unfold GameClient.registryGlobal
  cases name with
  | manager =>
    dsimp only
    split <;> exact ⟨rfl, rfl⟩
  | seat =>
    dsimp only
    split <;> exact ⟨rfl, rfl⟩
  | other => exact ⟨rfl, rfl⟩

namespace SessionInv

variable {s : GameSession} {c : GameClient}

/-- A client that is not active holds anything. -/
theorem of_inactive {mapping : Option GameMapping} (h : c.active = false) :
    SessionInv ⟨c, mapping⟩ := by
  intro hactive
  rw [show (GameSession.mk c mapping).client.active = false from h] at hactive
  cases hactive

/-- A call that keeps the flag, the capacity and the mapping. -/
theorem of_same (h : SessionInv s) (hactive : c.active = true → s.client.active = true)
    (hcapacity : c.active = true → c.capacity = s.client.capacity) :
    SessionInv ⟨c, s.mapping⟩ := by
  intro hc
  obtain ⟨m, hm, hfits⟩ := h (hactive hc)
  refine ⟨m, hm, ?_⟩
  show m.Fits c.capacity
  rw [hcapacity hc]
  exact hfits

theorem handle (h : SessionInv s) (event : QueueEvent) : SessionInv (s.handle event) := by
  cases event with
  | active a =>
    show SessionInv ⟨s.client.streamActive a, (QueueEvent.active a).mapping.or s.mapping⟩
    unfold GameClient.streamActive
    split
    · exact of_inactive rfl
    rename_i hbounds
    rw [Bool.not_eq_true', Bool.not_eq_false] at hbounds
    split
    · exact of_inactive rfl
    rename_i header hmapped
    split
    · exact of_inactive rfl
    rename_i hheader
    rw [Bool.not_eq_true', Bool.not_eq_false] at hheader
    have hmapping : (QueueEvent.active a).mapping = some ⟨a.mappingSize, header.metadata⟩ := by
      simp [QueueEvent.mapping, hmapped, hbounds, hheader]
    rw [hmapping]
    intro _
    exact ⟨_, rfl, fits_of_valid hbounds hheader⟩
  | global name bound =>
    show SessionInv ⟨s.client.registryGlobal name bound, s.mapping⟩
    have hframe := registryGlobal_frame s.client name bound
    exact h.of_same (fun hc => hframe.1 ▸ hc) (fun _ => hframe.2)
  | globalRemove => exact h.of_same id fun _ => rfl
  | notify reason _ _ =>
    show SessionInv ⟨s.client.streamNotify reason, s.mapping⟩
    unfold GameClient.streamNotify
    split
    · exact of_inactive rfl
    split
    · exact of_inactive rfl
    · exact h.of_same id fun _ => rfl
  | denied reason => exact of_inactive rfl
  | revoked _ _ _ _ _ => exact of_inactive rfl

theorem handleAll (h : SessionInv s) (events : List QueueEvent) :
    SessionInv (s.handleAll events) := by
  induction events generalizing s with
  | nil => exact h
  | cons event events ih => exact ih (h.handle event)

end SessionInv

theorem handleAll_client (s : GameSession) (events : List QueueEvent) :
    (s.handleAll events).client = s.client.handleAll events := by
  induction events generalizing s with
  | nil => rfl
  | cons event events ih => exact ih (s.handle event)

/-! ## Every call keeps the invariant -/

/-- The globals of a `connect` do not activate the client. -/
theorem globals_inactive (globals : List (GlobalInterface × Bool)) (c : GameClient)
    (h : c.active = false) :
    (globals.foldl (fun c g => c.registryGlobal g.1 g.2) c).active = false := by
  induction globals generalizing c with
  | nil => exact h
  | cons g globals ih => exact ih _ ((registryGlobal_frame c g.1 g.2).1.trans h)

/-- A `connect` whose requests all succeed comes to the tests behind its
registry roundtrip. -/
theorem connect_requested {c : GameClient} {env : ConnectEnv}
    (hready : (!env.waylandDisplay || !env.waylandSurface) = false)
    (hqueue : env.queue = true) (hwrapper : env.wrapper = true)
    (hregistry : env.registry = true) :
    ∃ c', c.connect env = c'.bindGlobals env ∧
      env.globals.foldl (fun c g => c.registryGlobal g.1 g.2) c' = c.boundClient env := by
  refine ⟨{ c.disconnect with
    faulted := false, error := "", queue := env.queue, registry := env.registry }, ?_, rfl⟩
  simp [GameClient.connect, hready, hqueue, hwrapper, hregistry]

/-- A `connect` that does not come to its activation leaves the client
inactive. -/
theorem connect_of_none {c : GameClient} {env : ConnectEnv}
    (hready : (!env.waylandDisplay || !env.waylandSurface) = false)
    (h : c.connectClient env = none) : (c.connect env).2.active = false := by
  by_cases hrequested : (env.queue && env.wrapper && env.registry) = true
  · simp only [Bool.and_eq_true] at hrequested
    obtain ⟨⟨hqueue, hwrapper⟩, hregistry⟩ := hrequested
    obtain ⟨c', hconnect, hbound⟩ := connect_requested (c := c) hready hqueue hwrapper hregistry
    rw [hconnect]
    simp only [GameClient.connectClient, hqueue, hwrapper, hregistry, Bool.true_and] at h
    unfold GameClient.bindGlobals
    rw [hbound]
    generalize c.boundClient env = bound at h ⊢
    dsimp only
    split
    · rfl
    rename_i hroundtrip
    split
    · rfl
    rename_i hmanager
    split
    · rfl
    rename_i hseat
    split
    · rfl
    rename_i hstream
    simp only [Bool.not_eq_true', Bool.not_eq_false] at hroundtrip hmanager hseat hstream
    simp [hroundtrip, hmanager, hseat, hstream] at h
  · unfold GameClient.connect
    rw [if_neg (by simp [hready])]
    dsimp only
    split
    · rfl
    rename_i hqueue
    split
    · rfl
    rename_i hwrapper
    split
    · rfl
    rename_i hregistry
    simp only [Bool.not_eq_true', Bool.not_eq_false] at hqueue hwrapper hregistry
    simp [hqueue, hwrapper, hregistry] at hrequested

theorem connect_of_some {c c' : GameClient} {env : ConnectEnv}
    (hready : (!env.waylandDisplay || !env.waylandSurface) = false)
    (h : c.connectClient env = some c') :
    c'.active = false ∧ (c.connect env).2 = (c'.awaitActivation env.activation).2 := by
  unfold GameClient.connectClient at h
  split at h
  · rename_i hall
    obtain rfl := Option.some.inj h
    simp only [Bool.and_eq_true] at hall
    obtain ⟨⟨⟨⟨⟨⟨hqueue, hwrapper⟩, hregistry⟩, hroundtrip⟩, hmanager⟩, hseat⟩, hstream⟩ := hall
    obtain ⟨c', hconnect, hbound⟩ := connect_requested (c := c) hready hqueue hwrapper hregistry
    constructor
    · exact globals_inactive _ _ rfl
    · rw [hconnect]
      simp [GameClient.bindGlobals, hbound, hroundtrip, hmanager, hseat, hstream]
  · cases h

namespace SessionInv

variable {s : GameSession}

theorem connect (h : SessionInv s) (env : ConnectEnv) :
    SessionInv (s.after (.connect env)) := by
  show SessionInv ⟨(s.client.connect env).2, _⟩
  by_cases hready : (!env.waylandDisplay || !env.waylandSurface) = true
  · rw [if_pos hready]
    have hsame : (s.client.connect env).2 = s.client := by
      rw [GameClient.connect, if_pos hready]
    rw [hsame]
    exact h
  · rw [if_neg hready]
    rw [Bool.not_eq_true] at hready
    cases hclient : s.client.connectClient env with
    | none => exact of_inactive (connect_of_none hready hclient)
    | some c =>
      obtain ⟨hinactive, hconnect⟩ := connect_of_some hready hclient
      rw [hconnect]
      have hstart : SessionInv ⟨c, none⟩ := of_inactive hinactive
      have hevents := hstart.handleAll env.activation.events
      have hc := handleAll_client ⟨c, none⟩ env.activation.events
      unfold GameClient.awaitActivation
      dsimp only
      split
      · exact of_inactive rfl
      · rw [show c.handleAll env.activation.events = _ from hc.symm]
        exact hevents

theorem read (h : SessionInv s) (env : ReadEnv) : SessionInv (s.after (.read env)) := by
  have hevents := h.handleAll (s.client.dispatched env)
  show SessionInv ⟨(s.client.read env).client, (s.handleAll (s.client.dispatched env)).mapping⟩
  have hclient := handleAll_client s (s.client.dispatched env)
  rcases read_cases s.client env with ⟨-, hsame, hnone⟩ | ⟨-, error, -, hfault⟩ | hread
  · rw [hsame, hnone]
    exact h
  · rw [hfault]
    exact of_inactive rfl
  rw [hread, ← hclient]
  generalize s.handleAll (s.client.dispatched env) = s' at hevents ⊢
  rcases readRing_cases s'.client env with ⟨-, hsame | ⟨error, -, hfault⟩⟩ | ⟨-, -, hcopy⟩
  · rw [hsame]
    exact hevents
  · rw [hfault]
    exact of_inactive rfl
  rw [hcopy]
  rcases copyRecords_cases s'.client env.ring env.ring.producer.head env.motionCapacity.isSome
    with ⟨-, hfault⟩ | ⟨expected, -, hdeliver⟩
  · rw [hfault]
    exact of_inactive rfl
  · rw [hdeliver]
    exact hevents.of_same id fun _ => rfl

theorem acknowledge (h : SessionInv s) (flush : IoResult) :
    SessionInv (s.after (.acknowledge flush)) := by
  show SessionInv ⟨(s.client.acknowledge flush).2, s.mapping⟩
  unfold GameClient.acknowledge
  split
  · exact h
  split
  · exact h.of_same id fun _ => rfl
  dsimp only
  split
  · exact h.of_same id fun _ => rfl
  · exact h.of_same id fun _ => rfl
  · exact of_inactive rfl

end SessionInv

/-- Every call keeps the invariant. -/
theorem SessionInv.after {s : GameSession} (h : SessionInv s) (call : GameCall) :
    SessionInv (s.after call) := by
  cases call with
  | event event => exact h.handle event
  | connect env => exact h.connect env
  | disconnect => exact SessionInv.of_inactive rfl
  | read env => exact h.read env
  | acknowledge flush => exact h.acknowledge flush

/-- Every run from a new client keeps the invariant. -/
theorem session_invariant {calls : List GameCall} {s : GameSession}
    (hrun : sessionMachine.run ⟨.create, none⟩ calls = some s) : SessionInv s := by
  refine Machine.run_invariant SessionInv ?_ (SessionInv.of_inactive rfl) hrun
  intro s call t hs hstep
  obtain rfl := Option.some.inj hstep
  exact hs.after call

/-! ## What a read touches -/

/-- The slots, the loop and the motions of a read of this session. -/
structure ReadInside (s : GameSession) (env : ReadEnv) : Prop where
  slots : ∀ slot ∈ s.client.readSlots env, ∃ m, (s.after (.read env)).mapping = some m ∧
    slotOffset m.metadata.headerSize slot + sizeofRecord ≤ m.size.toNat
  loop : (s.client.readSlots env).length ≤ (s.client.read env).client.capacity.toNat
  motions : ∀ motionCapacity, env.motionCapacity = some motionCapacity →
    (s.client.read env).motions.length ≤ motionCapacity.toNat
  noMotions : env.motionCapacity = none → (s.client.read env).motions = []

/-- A read that copies no slot writes no motion. -/
theorem ReadInside.of_no_slots {s : GameSession} {env : ReadEnv}
    (h : s.client.readSlots env = []) : ReadInside s env := by
  have hmotions := read_motions s.client env
  rw [h, List.length_nil] at hmotions
  refine ⟨?_, ?_, fun _ _ => by omega, hmotions.2⟩
  · rw [h]
    exact fun _ hslot => absurd hslot List.not_mem_nil
  · rw [h]
    exact Nat.zero_le _

theorem copyRecords_capacity (c : GameClient) (ring : RingHeader) (head : UInt64)
    (writes : Bool) : (c.copyRecords ring head writes).client.capacity = c.capacity := by
  unfold GameClient.copyRecords
  dsimp only
  split <;> rfl

/-- A slot of a mapping that fits is mapped. -/
theorem GameMapping.Fits.slot_inside {m : GameMapping} {capacity : UInt32}
    (h : m.Fits capacity) (position : UInt64) :
    slotOffset m.metadata.headerSize (slotIndex capacity position) + sizeofRecord ≤
      m.size.toNat := by
  have hheader : m.metadata.headerSize.toNat ≤ sizeofRingHeader := by
    rw [h.headerSize]
    decide
  have hslot : slotIndex capacity position < capacity.toNat := by
    apply slotIndex_lt
    have := h.pow2
    simp only [isPowerOfTwoU32, Bool.and_eq_true, bne_iff_ne] at this
    exact this.1
  exact (slotOffset_inside hheader hslot).trans h.size

/-- Whatever a client has been granted, and whatever the ring holds, a read
stays inside its mapping and inside the caller's buffer. -/
theorem game_reads_inside {calls : List GameCall} {s : GameSession}
    (hrun : sessionMachine.run ⟨.create, none⟩ calls = some s) (env : ReadEnv) :
    ReadInside s env := by
  cases hclient : s.client.readClient env with
  | none => exact ReadInside.of_no_slots (by rw [GameClient.readSlots, hclient])
  | some c =>
    obtain ⟨hread, hc⟩ := read_of_readClient hclient
    have hslots : s.client.readSlots env = if c.copies env then c.loopSlots env else [] := by
      rw [GameClient.readSlots, hclient]
    cases hcopies : c.copies env with
    | false =>
      rw [hcopies, if_neg Bool.false_ne_true] at hslots
      exact ReadInside.of_no_slots hslots
    | true =>
      rw [hcopies, if_pos rfl] at hslots
      obtain ⟨hloop, hindices, hbuffer⟩ := loopSlots_spec hcopies
      have hactive : c.active = true := by
        simp only [GameClient.copies, Bool.and_eq_true] at hcopies
        exact hcopies.1.1.1.1
      have hevents := (session_invariant hrun).handleAll (s.client.dispatched env)
      have hsame := handleAll_client s (s.client.dispatched env)
      rw [← hc] at hsame
      obtain ⟨m, hm, hfits⟩ := hevents (by rw [hsame]; exact hactive)
      rw [hsame] at hfits
      have hmotions := read_motions s.client env
      rw [hslots] at hmotions
      refine ⟨?_, ?_, fun k hk => hmotions.1.trans (hbuffer k hk), hmotions.2⟩
      · intro slot hslot
        rw [hslots] at hslot
        obtain ⟨position, rfl⟩ := hindices slot hslot
        exact ⟨m, hm, hfits.slot_inside position⟩
      · rw [hslots, hread, readRing_of_copies hcopies, copyRecords_capacity]
        exact hloop

/-- A client that has just been granted its stream reads two slots. -/
theorem game_reads_inside_granted :
    ∃ s, sessionMachine.run ⟨.create, none⟩ [.connect grantedStream] = some s ∧
      s.client.readSlots gameRead = [0, 1] ∧ ReadInside s gameRead := by
  have hrun : sessionMachine.run ⟨.create, none⟩ [.connect grantedStream] = some _ := rfl
  refine ⟨_, hrun, ?_, game_reads_inside hrun gameRead⟩
  decide

end Hfior
