import Hfior.Game.Coverage
import Hfior.Game.FailClosed
import Hfior.Library.Slice

/-!
# Late latching in the game client

A game reads the new records as often as it likes before it uses them.
`read_observed` says what one read of an observed ring delivers: the slice
of the accepted history from the local tail to the head.  So a chain of
reads delivers what a single read at its last head delivers.

A read that fails keeps the tails and the expected sequence, and no total
leaves 64 bits.  `late_latch` puts these together for every client that a
run reaches, with `Covered` for its acknowledges.
-/

namespace Hfior

/-! ## The copy loop -/

/-- The displacement of some records. -/
def totalDx (records : List Record) : Int := (records.map (·.dx.toInt)).sum

def totalDy (records : List Record) : Int := (records.map (·.dy.toInt)).sum

/-- The sequence that is expected behind some records. -/
def expectedAfter (expected : UInt64) (records : List Record) : UInt64 :=
  records.foldl (fun _ record => record.sequence + 1) expected

/-- The time of the last of some records. -/
def newestAfter (newest : UInt64) (records : List Record) : UInt64 :=
  records.foldl (fun _ record => record.timestampNs) newest

/-- No record is a sequence error. -/
def InSequence (expected : UInt64) : List Record → Prop
  | [] => True
  | record :: rest =>
    sequenceError expected record.sequence = false ∧ InSequence (record.sequence + 1) rest

theorem inSequence_append {expected : UInt64} {records rest : List Record} :
    InSequence expected (records ++ rest) ↔
      InSequence expected records ∧ InSequence (expectedAfter expected records) rest := by
  induction records generalizing expected with
  | nil => simp [InSequence, expectedAfter]
  | cons record records ih =>
    rw [List.cons_append, InSequence, InSequence, ih, expectedAfter, expectedAfter,
      List.foldl_cons, and_assoc]

/-- The loop on records without a sequence error. -/
theorem CopyLoop.run_of_inSequence {l : CopyLoop} {records : List Record}
    (h : InSequence l.expected records) :
    l.run records = (true, {
      expected := expectedAfter l.expected records
      dx := l.dx + Int64.ofInt (totalDx records)
      dy := l.dy + Int64.ofInt (totalDy records)
      newest := newestAfter l.newest records
      motions := l.motions ++ records.map Record.motion }) := by
  induction records generalizing l with
  | nil => simp [CopyLoop.run, expectedAfter, newestAfter, totalDx, totalDy]
  | cons record records ih =>
    obtain ⟨hfirst, hrest⟩ := h
    rw [CopyLoop.run, hfirst]
    simp only [Bool.false_eq_true, if_false]
    rw [ih hrest]
    simp [totalDx, totalDy, expectedAfter, newestAfter, Int64.add_assoc]

/-- The total of some 32-bit values is small. -/
theorem sum_toInt_bounds (value : Record → Int32) (records : List Record) :
    -(records.length * 2 ^ 31 : Int) ≤ (records.map fun r => (value r).toInt).sum ∧
      (records.map fun r => (value r).toInt).sum ≤ records.length * 2 ^ 31 := by
  induction records with
  | nil => simp
  | cons record records ih =>
    have hlo := (value record).le_toInt
    have hhi := (value record).toInt_lt
    rw [List.map_cons, List.sum_cons, List.length_cons]
    omega

/-- No total of at most `capacity` records leaves 64 bits. -/
def NoOverflow (capacity : UInt32) : Prop :=
  ∀ records : List Record, records.length ≤ capacity.toNat →
    (-2 ^ 63 ≤ totalDx records ∧ totalDx records < 2 ^ 63) ∧
    (-2 ^ 63 ≤ totalDy records ∧ totalDy records < 2 ^ 63)

theorem noOverflow_of_isPowerOfTwoU32 {capacity : UInt32}
    (h : isPowerOfTwoU32 capacity = true) : NoOverflow capacity := by
  intro records hlength
  obtain ⟨k, hk, hcapacity⟩ := exists_pow_of_isPowerOfTwoU32 h
  have hle : 2 ^ k ≤ 2 ^ 31 := Nat.pow_le_pow_right (by decide) (by omega)
  obtain ⟨hxlo, hxhi⟩ := sum_toInt_bounds Record.dx records
  obtain ⟨hylo, hyhi⟩ := sum_toInt_bounds Record.dy records
  unfold totalDx totalDy
  omega

/-! ## What one read delivers -/

/-- Consecutive non-zero sequences that go on with the expected one. -/
structure Consecutive (expected : UInt64) (records : List Record) : Prop where
  nonzero : ∀ record ∈ records, record.sequence ≠ 0
  consecutive : records.IsChain fun r r' => r'.sequence = r.sequence + 1
  continues : expected ≠ 0 → ∀ record ∈ records.head?, record.sequence = expected

theorem Consecutive.inSequence {expected : UInt64} {records : List Record}
    (h : Consecutive expected records) : InSequence expected records := by
  induction records generalizing expected with
  | nil => trivial
  | cons record records ih =>
    obtain ⟨hnonzero, hchain, hcontinues⟩ := h
    refine ⟨?_, ih ⟨?_, hchain.of_cons, ?_⟩⟩
    · have hne : record.sequence ≠ 0 := hnonzero record (by simp)
      by_cases hexpected : expected = 0
      · simp [sequenceError, hne, hexpected]
      · have heq := hcontinues hexpected record (by simp)
        simp [sequenceError, heq, hexpected]
    · intro r hr
      exact hnonzero r (by simp [hr])
    · intro _ next hnext
      cases records with
      | nil => simp at hnext
      | cons r records =>
        obtain rfl := Option.some.inj hnext
        exact (List.isChain_cons_cons.1 hchain).1

/-- A client that may read. -/
structure Streaming (c : GameClient) : Prop where
  active : c.active = true
  faulted : c.faulted = false
  header : c.header = true
  capacity : isPowerOfTwoU32 c.capacity = true

theorem FailClosed.streaming {c : GameClient} (h : FailClosed c) (hactive : c.active = true) :
    Streaming c :=
  ⟨hactive, h.exclusive hactive, (h.mapped hactive).1, (h.mapped hactive).2⟩

/-- An event that neither activates nor faults. -/
def QueueEvent.isQuiet : QueueEvent → Bool
  | .global _ _ | .globalRemove => true
  | .notify reason _ _ =>
    reason != HYPRLAND_HF_INPUT_STREAM_V1_NOTIFY_REASON_OVERFLOW &&
      reason != HYPRLAND_HF_INPUT_STREAM_V1_NOTIFY_REASON_REVOKED
  | .active _ | .denied _ | .revoked _ _ _ _ _ => false

/-- What a read at this tail meets: a ring without drops whose window holds
the history up to its head, and a buffer for the new motions. -/
structure Observes (capacity : UInt32) (log : List Record) (tail : Nat) (env : ReadEnv) :
    Prop where
  batch : env.batch = true
  quiet : ∀ d ∈ env.dispatch, d.succeeds = true ∧ ∀ event ∈ d.events, event.isQuiet = true
  noDrops : env.ring.producer.droppedNewest = 0
  tail_le : tail ≤ env.ring.producer.head.toNat
  head_le : env.ring.producer.head.toNat ≤ tail + capacity.toNat
  accepted : env.ring.producer.head.toNat ≤ log.length
  stores : Stores capacity.toNat env.ring.records (log.take env.ring.producer.head.toNat) tail
  buffer : ∃ motionCapacity, env.motionCapacity = some motionCapacity ∧
    env.ring.producer.head.toNat - tail ≤ motionCapacity.toNat

/-- A ring that is a correct image of the records so far is observed by a
client that is not behind its tail. -/
theorem observes_of_represents {log rest : List Record} {tail : Nat} {env : ReadEnv}
    {motionCapacity : UInt64} (hring : Represents env.ring log) (hbatch : env.batch = true)
    (hdispatch : env.dispatch = none) (hdrops : env.ring.producer.droppedNewest = 0)
    (htail : env.ring.consumer.tail.toNat ≤ tail) (hle : tail ≤ log.length)
    (hbuffer : env.motionCapacity = some motionCapacity)
    (hroom : log.length - tail ≤ motionCapacity.toNat) :
    Observes env.ring.metadata.capacity (log ++ rest) tail env := by
  have hwindow := hring.le_tail
  constructor
  case batch => exact hbatch
  case quiet => simp [hdispatch]
  case noDrops => exact hdrops
  case tail_le => rwa [hring.head]
  case head_le =>
    rw [hring.head]
    omega
  case accepted =>
    rw [hring.head, List.length_append]
    omega
  case stores =>
    rw [hring.head, List.take_left]
    exact hring.stores.mono htail
  case buffer =>
    rw [hring.head]
    exact ⟨motionCapacity, hbuffer, hroom⟩

/-- Quiet events touch the two bound globals only. -/
theorem handleAll_quiet (c : GameClient) {events : List QueueEvent}
    (h : ∀ event ∈ events, event.isQuiet = true) :
    ∃ manager seat, c.handleAll events = { c with manager := manager, seat := seat } := by
  induction events generalizing c with
  | nil => exact ⟨c.manager, c.seat, rfl⟩
  | cons event events ih =>
    have hhead : ∃ manager seat, c.handle event =
        { c with manager := manager, seat := seat } := by
      have hquiet := h event (by simp)
      cases event with
      | global name bound =>
        simp only [GameClient.handle, GameClient.registryGlobal]
        cases name with
        | manager =>
          cases hmanager : c.manager with
          | true => exact ⟨c.manager, c.seat, by simp⟩
          | false => exact ⟨bound, c.seat, by simp⟩
        | seat =>
          cases hseat : c.seat with
          | true => exact ⟨c.manager, c.seat, by simp⟩
          | false => exact ⟨c.manager, bound, by simp⟩
        | other => exact ⟨c.manager, c.seat, rfl⟩
      | globalRemove => exact ⟨c.manager, c.seat, rfl⟩
      | notify reason _ _ =>
        simp only [QueueEvent.isQuiet, Bool.and_eq_true, bne_iff_ne] at hquiet
        simp only [GameClient.handle, GameClient.streamNotify, beq_iff_eq, hquiet.1, hquiet.2,
          if_false]
        exact ⟨c.manager, c.seat, rfl⟩
      | active activation => cases hquiet
      | denied reason => cases hquiet
      | revoked _ _ _ _ _ => cases hquiet
    obtain ⟨manager, seat, hfirst⟩ := hhead
    rw [GameClient.handleAll, List.foldl_cons, hfirst]
    exact ih _ fun e he => h e (by simp [he])

/-- The slots of the positions up to the head hold a slice of the history. -/
theorem slotsFrom_eq {capacity : UInt32} {log : List Record} {slots : Nat → Record}
    {first head : UInt64} (hpow2 : isPowerOfTwoU32 capacity = true)
    (hle : first.toNat ≤ head.toNat) (haccepted : head.toNat ≤ log.length)
    (h : Stores capacity.toNat slots (log.take head.toNat) first.toNat) :
    slotsFrom slots capacity first (head - first).toNat =
      slice log first.toNat head.toNat := by
  have hcount : (head - first).toNat = head.toNat - first.toNat :=
    UInt64.toNat_sub_of_le _ _ (UInt64.le_iff_toNat_le.2 hle)
  have hend : first.toNat + (head.toNat - first.toNat) = head.toNat := by omega
  have hread := h.read (Nat.le_refl _) (head.toNat - first.toNat) (by
    rw [List.length_take]
    omega)
  have hslice : slice (log.take head.toNat) first.toNat head.toNat =
      slice log first.toNat head.toNat := by
    rw [slice, slice, List.take_take, Nat.min_self]
  rw [hend, hslice] at hread
  rw [hcount, ← hread, slotsFrom]
  apply List.map_congr_left
  intro i hi
  rw [List.mem_range] at hi
  have hlt : head.toNat < 2 ^ 64 := head.toNat_lt
  have hi64 : i < 2 ^ 64 := by omega
  have hof : (UInt64.ofNat i).toNat = i := UInt64.toNat_ofNat_of_lt' hi64
  have hsum : (first + UInt64.ofNat i).toNat = first.toNat + i := by
    rw [UInt64.toNat_add, hof, Nat.mod_eq_of_lt]
    omega
  rw [slotIndex_eq_mod hpow2, hsum]

/-- A read delivers exactly these records. -/
structure Delivers (c : GameClient) (env : ReadEnv) (records : List Record) : Prop where
  ok : (c.read env).ok = true
  motions : (c.read env).motions = records.map Record.motion
  dx : (c.read env).batch.dx.toInt = totalDx records
  dy : (c.read env).batch.dy.toInt = totalDy records
  count : (c.read env).batch.records.toNat = records.length
  localTail : (c.read env).client.localTail = env.ring.producer.head
  expectedSequence : (c.read env).client.expectedSequence =
    expectedAfter c.expectedSequence records
  streaming : Streaming (c.read env).client
  capacity : (c.read env).client.capacity = c.capacity

section
variable {c : GameClient} {log : List Record} {env : ReadEnv}

/-- The copy loop on slots without a sequence error. -/
theorem copyRecords_of_inSequence {ring : RingHeader} {head : UInt64} {records : List Record}
    (hslots : slotsFrom ring.records c.capacity c.localTail (head - c.localTail).toNat = records)
    (hsequence : InSequence c.expectedSequence records) :
    c.copyRecords ring head true = {
      ok := true
      batch := {
        dx := Int64.ofInt (totalDx records)
        dy := Int64.ofInt (totalDy records)
        records := head - c.localTail
        newestTimestampNs := newestAfter 0 records
        producerDrops := 0
        sequenceErrors := c.sequenceErrors }
      motions := records.map Record.motion
      client := GameClient.log { c with
        localTail := head
        expectedSequence := expectedAfter c.expectedSequence records }
        (.delivered c.localTail records) } := by
  have hrun := CopyLoop.run_of_inSequence (l := ⟨c.expectedSequence, 0, 0, 0, []⟩) hsequence
  unfold GameClient.copyRecords
  simp only [hslots, hrun, Int64.zero_add, List.nil_append, Bool.not_true,
    Bool.false_eq_true, if_false, if_true]

/-- The checks of a read behind the dispatch. -/
theorem readRing_of_observes (h : Streaming c)
    (hobserves : Observes c.capacity log c.localTail.toNat env) :
    c.readRing env = c.copyRecords env.ring env.ring.producer.head true := by
  obtain ⟨motionCapacity, hbuffer, hroom⟩ := hobserves.buffer
  have hle : c.localTail ≤ env.ring.producer.head :=
    UInt64.le_iff_toNat_le.2 hobserves.tail_le
  have hcount := UInt64.toNat_sub_of_le _ _ hle
  have htail_le := hobserves.tail_le
  have hhead_le := hobserves.head_le
  have hbounds : ¬ (env.ring.producer.head < c.localTail ||
      env.ring.producer.head - c.localTail > c.capacity.toUInt64) = true := by
    simp only [Bool.or_eq_true, decide_eq_true_eq, gt_iff_lt, UInt64.lt_iff_toNat_lt,
      UInt32.toNat_toUInt64, hcount]
    omega
  have hfits : ¬ (env.ring.producer.head - c.localTail > motionCapacity) := by
    rw [gt_iff_lt, UInt64.lt_iff_toNat_lt, hcount]
    omega
  have hready : ¬ (!c.active || c.faulted) = true := by
    simp [h.active, h.faulted]
  have hdrops : ¬ (env.ring.producer.droppedNewest != 0) = true := by
    simp [hobserves.noDrops]
  rw [GameClient.readRing, if_neg hready]
  dsimp only
  rw [if_neg hdrops, if_neg hbounds, hbuffer]
  simp only [Option.any_some, hfits, decide_false, Bool.false_eq_true, if_false,
    Option.isSome_some]

/-- A read of an observed ring delivers the slice of the history from the
local tail to the head. -/
theorem read_observed (h : Streaming c)
    (hobserves : Observes c.capacity log c.localTail.toNat env)
    (hsequence : InSequence c.expectedSequence
      (slice log c.localTail.toNat env.ring.producer.head.toNat)) :
    Delivers c env (slice log c.localTail.toNat env.ring.producer.head.toNat) := by
  -- The dispatch leaves the client to the ring.
  have hread : ∃ manager seat, c.read env = GameClient.copyRecords
      { c with manager := manager, seat := seat } env.ring env.ring.producer.head true := by
    have hbatch : ¬ (!env.batch) = true := by simp [hobserves.batch]
    have hready : ¬ (!c.active || !c.header) = true := by simp [h.active, h.header]
    rw [GameClient.read, if_neg hbatch, if_neg hready]
    cases hdispatch : env.dispatch with
    | none => exact ⟨c.manager, c.seat, readRing_of_observes h hobserves⟩
    | some dispatch =>
      obtain ⟨hsucceeds, hevents⟩ := hobserves.quiet dispatch (by simp [hdispatch])
      obtain ⟨manager, seat, hquiet⟩ := handleAll_quiet c hevents
      refine ⟨manager, seat, ?_⟩
      have hafter : Streaming { c with manager := manager, seat := seat } :=
        ⟨h.active, h.faulted, h.header, h.capacity⟩
      simp only [hquiet, hsucceeds, Bool.not_true, Bool.false_eq_true, if_false]
      exact readRing_of_observes hafter hobserves
  obtain ⟨manager, seat, hread⟩ := hread
  have hslots := slotsFrom_eq h.capacity hobserves.tail_le hobserves.accepted hobserves.stores
  have hlength : (slice log c.localTail.toNat env.ring.producer.head.toNat).length =
      env.ring.producer.head.toNat - c.localTail.toNat := slice_length hobserves.accepted
  have hhead_le := hobserves.head_le
  obtain ⟨⟨hxlo, hxhi⟩, hylo, hyhi⟩ := noOverflow_of_isPowerOfTwoU32 h.capacity _
    (show (slice log c.localTail.toNat env.ring.producer.head.toNat).length ≤ _ by omega)
  have hcount := UInt64.toNat_sub_of_le _ _ (UInt64.le_iff_toNat_le.2 hobserves.tail_le)
  replace hread := hread.trans (copyRecords_of_inSequence
    (c := { c with manager := manager, seat := seat }) hslots hsequence)
  constructor
  case ok => rw [hread]
  case motions => rw [hread]
  case dx => simpa only [hread] using Int64.toInt_ofInt_of_le hxlo hxhi
  case dy => simpa only [hread] using Int64.toInt_ofInt_of_le hylo hyhi
  case count => simpa only [hread, hlength] using hcount
  case localTail => rw [hread]; rfl
  case expectedSequence => rw [hread]; rfl
  case streaming =>
    rw [hread]
    exact ⟨h.active, h.faulted, h.header, h.capacity⟩
  case capacity => rw [hread]; rfl

end

/-! ## A chain of reads -/

/-- Reading in turn: the results, and the client behind them. -/
def GameClient.readEach (c : GameClient) : List ReadEnv → List ReadResult × GameClient
  | [] => ([], c)
  | env :: envs =>
    let result := c.read env
    let (results, c) := result.client.readEach envs
    (result :: results, c)

/-- Each read observes the history at the tail that the one before it has
left, so the heads go up. -/
def ObservedChain (capacity : UInt32) (log : List Record) : Nat → List ReadEnv → Prop
  | _, [] => True
  | tail, env :: envs => Observes capacity log tail env ∧
    ObservedChain capacity log env.ring.producer.head.toNat envs

/-- The last of the heads. -/
def lastHead (head : UInt64) (envs : List ReadEnv) : UInt64 :=
  envs.foldl (fun _ env => env.ring.producer.head) head

section
variable {capacity : UInt32} {log : List Record} {envs : List ReadEnv}

theorem ObservedChain.le_lastHead {head : UInt64}
    (h : ObservedChain capacity log head.toNat envs) :
    head.toNat ≤ (lastHead head envs).toNat := by
  induction envs generalizing head with
  | nil => exact Nat.le_refl _
  | cons env envs ih =>
    obtain ⟨hobserves, hchain⟩ := h
    exact hobserves.tail_le.trans (ih hchain)

/-- A chain of reads delivers exactly these records. -/
structure EachDelivers (c : GameClient) (envs : List ReadEnv) (records : List Record) :
    Prop where
  ok : ∀ result ∈ (c.readEach envs).1, result.ok = true
  motions : (c.readEach envs).1.flatMap ReadResult.motions = records.map Record.motion
  dx : ((c.readEach envs).1.map fun r => r.batch.dx.toInt).sum = totalDx records
  dy : ((c.readEach envs).1.map fun r => r.batch.dy.toInt).sum = totalDy records
  count : ((c.readEach envs).1.map fun r => r.batch.records.toNat).sum = records.length
  localTail : (c.readEach envs).2.localTail = lastHead c.localTail envs
  expectedSequence : (c.readEach envs).2.expectedSequence =
    expectedAfter c.expectedSequence records

/-- A chain of reads of the history delivers its slice up to the last head. -/
theorem readEach_observed {c : GameClient} (h : Streaming c)
    (hchain : ObservedChain c.capacity log c.localTail.toNat envs)
    (hsequence : InSequence c.expectedSequence
      (slice log c.localTail.toNat (lastHead c.localTail envs).toNat)) :
    EachDelivers c envs (slice log c.localTail.toNat (lastHead c.localTail envs).toNat) := by
  induction envs generalizing c with
  | nil =>
    have hnil : slice log c.localTail.toNat (lastHead c.localTail []).toNat = [] := slice_self
    rw [hnil]
    constructor <;> simp [GameClient.readEach, lastHead, totalDx, totalDy, expectedAfter]
  | cons env envs ih =>
    obtain ⟨hobserves, hrest⟩ := hchain
    have hlast : lastHead c.localTail (env :: envs) =
        lastHead env.ring.producer.head envs := rfl
    -- The slice is cut at the head of the first read.
    have hcut := slice_append_slice (l := log) hobserves.tail_le hrest.le_lastHead
    rw [hlast, ← hcut] at hsequence ⊢
    obtain ⟨hfirst, hbehind⟩ := inSequence_append.1 hsequence
    have hread := read_observed h hobserves hfirst
    rw [← hread.expectedSequence, ← hread.localTail] at hbehind
    rw [← hread.capacity, ← hread.localTail] at hrest
    have heach := ih hread.streaming hrest hbehind
    rw [hread.localTail] at heach
    constructor
    case ok =>
      intro result hresult
      rcases List.mem_cons.1 hresult with rfl | hresult
      · exact hread.ok
      · exact heach.ok result hresult
    case motions =>
      rw [List.map_append, ← heach.motions, ← hread.motions]
      rfl
    case dx =>
      rw [totalDx, List.map_append, List.sum_append, ← totalDx, ← totalDx, ← heach.dx,
        ← hread.dx]
      rfl
    case dy =>
      rw [totalDy, List.map_append, List.sum_append, ← totalDy, ← totalDy, ← heach.dy,
        ← hread.dy]
      rfl
    case count =>
      rw [List.length_append, ← heach.count, ← hread.count]
      rfl
    case localTail =>
      rw [hlast, ← hread.localTail]
      exact heach.localTail
    case expectedSequence =>
      rw [expectedAfter, List.foldl_append, ← expectedAfter, ← expectedAfter,
        ← hread.expectedSequence]
      exact heach.expectedSequence

end

/-! ## A read that fails -/

/-- The two tails and the expected sequence are the same. -/
structure SamePositions (c c' : GameClient) : Prop where
  localTail : c'.localTail = c.localTail
  acknowledgedTail : c'.acknowledgedTail = c.acknowledgedTail
  expectedSequence : c'.expectedSequence = c.expectedSequence

theorem SamePositions.trans {c c' c'' : GameClient} (h : SamePositions c c')
    (h' : SamePositions c' c'') : SamePositions c c'' :=
  ⟨h'.1.trans h.1, h'.2.trans h.2, h'.3.trans h.3⟩

/-- The event is an activation that passes its checks. -/
def QueueEvent.activates : QueueEvent → Bool
  | .active a => a.valid
  | _ => false

section
variable (c : GameClient)

theorem samePositions_setError (message : String) : SamePositions c (c.setError message) :=
  ⟨rfl, rfl, rfl⟩

theorem samePositions_handle {event : QueueEvent} (h : event.activates = false) :
    SamePositions c (c.handle event) := by
  cases event with
  | global name bound =>
    simp only [GameClient.handle, GameClient.registryGlobal]
    cases name with
    | manager => dsimp only; split <;> exact ⟨rfl, rfl, rfl⟩
    | seat => dsimp only; split <;> exact ⟨rfl, rfl, rfl⟩
    | other => exact ⟨rfl, rfl, rfl⟩
  | globalRemove => exact ⟨rfl, rfl, rfl⟩
  | active a =>
    simp only [QueueEvent.activates, Activation.valid, Bool.and_eq_false_iff] at h
    simp only [GameClient.handle, GameClient.streamActive]
    split
    · exact samePositions_setError c _
    rename_i hbounds
    rw [Bool.not_eq_true', Bool.not_eq_false] at hbounds
    split
    · exact samePositions_setError c _
    rename_i header hmapped
    have hinvalid : a.headerValid header = false := by
      simpa [hmapped, hbounds] using h
    rw [hinvalid]
    exact samePositions_setError c _
  | notify reason _ _ =>
    simp only [GameClient.handle, GameClient.streamNotify]
    split
    · exact samePositions_setError c _
    split
    · exact samePositions_setError c _
    · exact ⟨rfl, rfl, rfl⟩
  | denied reason => exact ⟨rfl, rfl, rfl⟩
  | revoked _ _ _ _ _ => exact samePositions_setError c _

theorem samePositions_handleAll {events : List QueueEvent}
    (h : ∀ event ∈ events, event.activates = false) : SamePositions c (c.handleAll events) := by
  induction events generalizing c with
  | nil => exact ⟨rfl, rfl, rfl⟩
  | cons event events ih =>
    rw [GameClient.handleAll, List.foldl_cons]
    have hfirst := samePositions_handle c (h event (by simp))
    exact hfirst.trans (ih _ fun e he => h e (by simp [he]))

/-- A read that returns false, and has dispatched no valid activation, keeps
the positions, also if it finds a sequence error behind copied records. -/
theorem samePositions_read {env : ReadEnv} (hfail : (c.read env).ok = false)
    (hevents : ∀ event ∈ c.dispatched env, event.activates = false) :
    SamePositions c (c.read env).client := by
  have hsame := samePositions_handleAll c hevents
  rcases read_cases c env with ⟨-, hclient, -⟩ | ⟨-, error, -, hfault⟩ | hread
  · rw [hclient]
    exact ⟨rfl, rfl, rfl⟩
  · rw [hfault]
    exact hsame.trans (samePositions_setError _ error)
  rw [hread] at hfail ⊢
  generalize c.handleAll (c.dispatched env) = c' at hsame hfail ⊢
  refine hsame.trans ?_
  rcases readRing_cases c' env with ⟨-, hclient | ⟨error, -, hfault⟩⟩ | ⟨-, -, hcopy⟩
  · rw [hclient]
    exact ⟨rfl, rfl, rfl⟩
  · rw [hfault]
    exact samePositions_setError c' error
  rw [hcopy] at hfail ⊢
  rcases copyRecords_cases c' env.ring env.ring.producer.head env.motionCapacity.isSome with
    ⟨-, hfault⟩ | ⟨expected, hok, -⟩
  · rw [hfault]
    exact ⟨rfl, rfl, rfl⟩
  · rw [hok] at hfail
    cases hfail

end

/-! ## Late latching -/

/-- The chain of reads and the single read deliver the same. -/
structure SameReads (each : List ReadResult × GameClient) (single : ReadResult) : Prop where
  eachOk : ∀ result ∈ each.1, result.ok = true
  singleOk : single.ok = true
  motions : each.1.flatMap ReadResult.motions = single.motions
  dx : (each.1.map fun r => r.batch.dx.toInt).sum = single.batch.dx.toInt
  dy : (each.1.map fun r => r.batch.dy.toInt).sum = single.batch.dy.toInt
  count : (each.1.map fun r => r.batch.records.toNat).sum = single.batch.records.toNat
  localTail : each.2.localTail = single.client.localTail
  expectedSequence : each.2.expectedSequence = single.client.expectedSequence

/-- For every history and every chain of observed heads, reading at each of
them delivers what a single read at the last one delivers: the motions, the
totals and the number of the records in between. -/
def LateLatchTransparent (c : GameClient) : Prop :=
  ∀ log envs once, ObservedChain c.capacity log c.localTail.toNat envs →
    Observes c.capacity log c.localTail.toNat once →
    once.ring.producer.head = lastHead c.localTail envs →
    Consecutive c.expectedSequence
      (slice log c.localTail.toNat once.ring.producer.head.toNat) →
    SameReads (c.readEach envs) (c.read once) ∧
      Delivers c once (slice log c.localTail.toNat once.ring.producer.head.toNat)

theorem Streaming.lateLatchTransparent {c : GameClient} (h : Streaming c) :
    LateLatchTransparent c := by
  intro log envs once hchain honce hlast hconsecutive
  have hsequence := hconsecutive.inSequence
  have hsingle := read_observed h honce hsequence
  refine ⟨?_, hsingle⟩
  rw [hlast] at hsequence hsingle
  have heach := readEach_observed h hchain hsequence
  constructor
  case eachOk => exact heach.ok
  case singleOk => exact hsingle.ok
  case motions => rw [heach.motions, hsingle.motions]
  case dx => rw [heach.dx, hsingle.dx]
  case dy => rw [heach.dy, hsingle.dy]
  case count => rw [heach.count, hsingle.count]
  case localTail => rw [heach.localTail, hsingle.localTail, hlast]
  case expectedSequence => rw [heach.expectedSequence, hsingle.expectedSequence]

/-- In every state that a run of the client reaches: late latching is
transparent, the capacity is admissible, and no total of an admissible
capacity overflows, a read that returns false without a valid activation
keeps the positions, and every acknowledge covers delivered records only. -/
theorem late_latch {calls : List GameCall} {c : GameClient}
    (hrun : gameMachine.run .create calls = some c) :
    (c.active = true → LateLatchTransparent c) ∧
    (c.active = true → isPowerOfTwoU32 c.capacity = true) ∧
    (∀ capacity, isPowerOfTwoU32 capacity = true → NoOverflow capacity) ∧
    (∀ env, (c.read env).ok = false →
      (∀ event ∈ c.dispatched env, event.activates = false) →
      SamePositions c (c.read env).client) ∧
    AcksDelivered c.trace := by
  have hclosed := failClosed_run hrun
  refine ⟨?_, ?_, ?_, ?_, (covered_run hrun).acks⟩
  · intro hactive
    exact (hclosed.streaming hactive).lateLatchTransparent
  · intro hactive
    exact (hclosed.mapped hactive).2
  · intro capacity hcapacity
    exact noOverflow_of_isPowerOfTwoU32 hcapacity
  · intro env hfail hevents
    exact samePositions_read c hfail hevents

/-- The history of the two records of `gameRing`. -/
def gameHistory : List Record := (List.range 2).map gameRing.records

/-- A read while the head of `gameRing` is there. -/
def gameReadAt (head : UInt64) : ReadEnv :=
  ⟨true, none, { gameRing with producer.head := head }, some 4⟩

private theorem observes_gameReadAt {tail : Nat} {head : UInt64} (hle : tail ≤ head.toNat)
    (hhead : head.toNat ≤ 2) : Observes 4 gameHistory tail (gameReadAt head) where
  batch := rfl
  quiet := by simp [gameReadAt]
  noDrops := rfl
  tail_le := hle
  head_le := by
    show head.toNat ≤ tail + 4
    omega
  accepted := hhead
  stores := by
    intro p hp _
    rw [List.length_take] at hp
    have hlt : p < head.toNat := Nat.lt_of_lt_of_le hp (Nat.min_le_left _ _)
    have hslot : p % (4 : UInt32).toNat = p := by
      apply Nat.mod_eq_of_lt
      show p < 4
      omega
    rw [hslot]
    simp [gameHistory, gameReadAt]
  buffer := by
    refine ⟨4, rfl, ?_⟩
    show head.toNat - tail ≤ 4
    omega

/-- The two records, read one after the other and at once. -/
theorem late_latch_two_records :
    ∃ c, gameMachine.run .create [.connect grantedStream] = some c ∧
      SameReads (c.readEach [gameReadAt 1, gameReadAt 2]) (c.read (gameReadAt 2)) ∧
      (c.read (gameReadAt 2)).batch.dx = 6 := by
  have hrun : gameMachine.run .create [.connect grantedStream] = some _ := rfl
  refine ⟨_, hrun, ((late_latch hrun).1 rfl gameHistory _ _ ?_ ?_ rfl ?_).1, by decide⟩
  · exact ⟨observes_gameReadAt (Nat.zero_le _) (by decide),
      observes_gameReadAt (by decide) (by decide), trivial⟩
  · exact observes_gameReadAt (Nat.zero_le _) (by decide)
  · exact ⟨by decide, by decide, by decide⟩

end Hfior
