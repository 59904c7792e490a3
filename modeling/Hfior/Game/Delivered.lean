import Hfior.Game.LateLatch

/-!
# What a stream has delivered

`deliveredRecords` reads off a trace the records that its reads have
delivered, in order.  `read_ok` says what a read that returns true has done,
and `delivered_read`, `delivered_connect` and `delivered_acknowledge` what
each call adds to the delivered records.
-/

namespace Hfior

/-- The records of an entry. -/
def GameEntry.records : GameEntry → List Record
  | .delivered _ records => records
  | _ => []

def deliveredRecords (trace : List GameEntry) : List Record :=
  trace.flatMap GameEntry.records

def deliveredMotions (trace : List GameEntry) : List Motion :=
  (deliveredRecords trace).map Record.motion

@[simp] theorem deliveredRecords_append (trace trace' : List GameEntry) :
    deliveredRecords (trace ++ trace') = deliveredRecords trace ++ deliveredRecords trace' :=
  List.flatMap_append

@[simp] theorem deliveredRecords_single (entry : GameEntry) :
    deliveredRecords [entry] = entry.records := by
  simp [deliveredRecords]

namespace GameClient

variable (c : GameClient)

/-- The records that the client has delivered. -/
def delivered : List Record := deliveredRecords c.trace

@[simp] theorem delivered_log (entry : GameEntry) :
    (c.log entry).delivered = c.delivered ++ entry.records := by
  simp [delivered, log]

@[simp] theorem delivered_setError (message : String) :
    (c.setError message).delivered = c.delivered := by
  simp [setError, delivered, log, GameEntry.records]

@[simp] theorem delivered_disconnect : c.disconnect.delivered = c.delivered := by
  simp [disconnect, delivered, log, GameEntry.records]

/-! ## Events -/

theorem delivered_streamActive (a : Activation) :
    (c.streamActive a).delivered = c.delivered := by
  unfold streamActive
  split
  · exact delivered_setError c _
  split
  · exact delivered_setError c _
  split
  · exact delivered_setError c _
  · simp [activate, delivered, log, GameEntry.records]

theorem delivered_streamNotify (reason : UInt32) :
    (c.streamNotify reason).delivered = c.delivered := by
  unfold streamNotify
  split
  · exact delivered_setError c _
  split
  · exact delivered_setError c _
  · rfl

theorem trace_registryGlobal (name : GlobalInterface) (bound : Bool) :
    (c.registryGlobal name bound).trace = c.trace := by
  cases name with
  | manager =>
    dsimp only [registryGlobal]
    split <;> rfl
  | seat =>
    dsimp only [registryGlobal]
    split <;> rfl
  | other => rfl

theorem delivered_handle (event : QueueEvent) : (c.handle event).delivered = c.delivered := by
  cases event with
  | global name bound => exact congrArg deliveredRecords (trace_registryGlobal c name bound)
  | globalRemove => rfl
  | active a => exact delivered_streamActive c a
  | notify reason _ _ => exact delivered_streamNotify c reason
  | denied reason => simp [handle, streamDenied, delivered, log, GameEntry.records]
  | revoked _ _ _ _ _ => exact delivered_setError c _

@[simp] theorem delivered_handleAll (events : List QueueEvent) :
    (c.handleAll events).delivered = c.delivered := by
  induction events generalizing c with
  | nil => rfl
  | cons event events ih =>
    rw [handleAll, List.foldl_cons, ← handleAll, ih, delivered_handle]

/-! ## Calls -/

theorem trace_foldl_registryGlobal (globals : List (GlobalInterface × Bool)) :
    (globals.foldl (fun c g => c.registryGlobal g.1 g.2) c).trace = c.trace := by
  induction globals generalizing c with
  | nil => rfl
  | cons g globals ih => rw [List.foldl_cons, ih, trace_registryGlobal]

theorem delivered_bindGlobals (env : ConnectEnv) :
    (c.bindGlobals env).2.delivered = c.delivered := by
  have hglobals : deliveredRecords
      (env.globals.foldl (fun c g => c.registryGlobal g.1 g.2) c).trace = c.delivered :=
    congrArg deliveredRecords (trace_foldl_registryGlobal c env.globals)
  unfold bindGlobals
  dsimp only
  split
  · rwa [delivered_setError]
  split
  · rwa [delivered_setError]
  split
  · rwa [delivered_setError]
  split
  · rwa [delivered_setError]
  unfold awaitActivation
  dsimp only
  split
  · rwa [delivered_setError, delivered_handleAll]
  · rwa [delivered_handleAll]

@[simp] theorem delivered_connect (env : ConnectEnv) :
    (c.connect env).2.delivered = c.delivered := by
  unfold connect
  split
  · rfl
  dsimp only
  have hdisconnect : deliveredRecords c.disconnect.trace = c.delivered := delivered_disconnect c
  split
  · rwa [delivered_setError]
  split
  · rwa [delivered_setError]
  split
  · rwa [delivered_setError]
  · rwa [delivered_bindGlobals]

@[simp] theorem delivered_acknowledge (flush : IoResult) :
    (c.acknowledge flush).2.delivered = c.delivered := by
  unfold acknowledge
  split
  · rfl
  split
  · simp [GameEntry.records]
  dsimp only
  have hsent : GameClient.delivered
      { c.log (.ackSent c.ackRequest) with acknowledgedTail := c.localTail } = c.delivered := by
    simp [delivered, log, GameEntry.records]
  split
  · rw [delivered_log, hsent]
    simp [GameEntry.records]
  · rw [delivered_log, hsent]
    simp [GameEntry.records]
  · rw [delivered_setError, hsent]

end GameClient

/-! ## Reads -/

/-- A copy loop that comes to its end has found no sequence error. -/
theorem CopyLoop.inSequence_of_run {l : CopyLoop} {records : List Record}
    (h : (l.run records).1 = true) : InSequence l.expected records := by
  induction records generalizing l with
  | nil => trivial
  | cons record records ih =>
    rw [CopyLoop.run] at h
    cases herror : sequenceError l.expected record.sequence with
    | true => simp [herror] at h
    | false =>
      rw [herror] at h
      exact ⟨herror, ih h⟩

/-- A read that returns true, of the client `now` that its events have left. -/
structure ReadOk (now : GameClient) (env : ReadEnv) (r : ReadResult) (records : List Record) :
    Prop where
  active : now.active = true
  faulted : now.faulted = false
  inSequence : InSequence now.expectedSequence records
  count : records.length = r.batch.records.toNat
  motions : env.motionCapacity.isSome = true → r.motions = records.map Record.motion
  newest : r.batch.newestTimestampNs = newestAfter 0 records
  producerDrops : r.batch.producerDrops = 0
  sequenceErrors : r.batch.sequenceErrors = now.sequenceErrors
  client : r.client = GameClient.log { now with
    localTail := env.ring.producer.head
    expectedSequence := expectedAfter now.expectedSequence records }
    (.delivered now.localTail records)

theorem copyRecords_ok {c : GameClient} {env : ReadEnv} (hactive : c.active = true)
    (hfaulted : c.faulted = false)
    (hok : (c.copyRecords env.ring env.ring.producer.head env.motionCapacity.isSome).ok = true) :
    ∃ records, ReadOk c env
      (c.copyRecords env.ring env.ring.producer.head env.motionCapacity.isSome) records := by
  have hrun : (CopyLoop.run ⟨c.expectedSequence, 0, 0, 0, []⟩ (slotsFrom env.ring.records
      c.capacity c.localTail (env.ring.producer.head - c.localTail).toNat)).1 = true := by
    by_contra hstop
    rw [Bool.not_eq_true] at hstop
    simp [GameClient.copyRecords, hstop, GameClient.readFailed] at hok
  have hsequence := CopyLoop.inSequence_of_run hrun
  have hloop := CopyLoop.run_of_inSequence hsequence
  refine ⟨_, hactive, hfaulted, hsequence, ?_, ?_, ?_, ?_, ?_, ?_⟩
  · rw [slotsFrom_length]
    simp [GameClient.copyRecords, hloop]
  · intro hwrites
    simp [GameClient.copyRecords, hloop, hwrites]
  · simp [GameClient.copyRecords, hloop]
  · simp [GameClient.copyRecords, hloop]
  · simp [GameClient.copyRecords, hloop]
  · simp [GameClient.copyRecords, hloop]

theorem readRing_ok {c : GameClient} {env : ReadEnv} (hok : (c.readRing env).ok = true) :
    ∃ records, ReadOk c env (c.readRing env) records := by
  by_cases hready : (!c.active || c.faulted) = true
  · rw [GameClient.readRing, if_pos hready] at hok
    cases hok
  · simp only [Bool.or_eq_true, Bool.not_eq_true', not_or, Bool.not_eq_false,
      Bool.not_eq_true] at hready
    rcases readRing_cases c env with ⟨hfail, -⟩ | ⟨-, -, hcopy⟩
    · rw [hfail] at hok
      cases hok
    · rw [hcopy] at hok ⊢
      exact copyRecords_ok hready.1 hready.2 hok

/-- A read that returns true has delivered records behind its events. -/
theorem read_ok {c : GameClient} {env : ReadEnv} (hok : (c.read env).ok = true) :
    ∃ records, ReadOk (c.handleAll (c.dispatched env)) env (c.read env) records := by
  rcases read_cases c env with ⟨hfail, -⟩ | ⟨hfail, -⟩ | hread
  · rw [hfail] at hok
    cases hok
  · rw [hfail] at hok
    cases hok
  · rw [hread] at hok ⊢
    exact readRing_ok hok

theorem readRing_fits {c : GameClient} {env : ReadEnv} {motionCapacity : UInt64}
    (hcapacity : env.motionCapacity = some motionCapacity) (hok : (c.readRing env).ok = true) :
    (c.readRing env).batch.records ≤ motionCapacity := by
  unfold GameClient.readRing at hok ⊢
  split at hok
  · cases hok
  rename_i hready
  rw [if_neg hready]
  dsimp only at hok ⊢
  split at hok
  · cases hok
  rename_i hdrops
  rw [if_neg hdrops]
  split at hok
  · cases hok
  rename_i hbounds
  rw [if_neg hbounds]
  split at hok
  · cases hok
  rename_i hfits
  rw [if_neg hfits]
  simp only [hcapacity, Option.any_some, decide_eq_true_eq, gt_iff_lt, UInt64.not_lt] at hfits
  unfold GameClient.copyRecords at hok ⊢
  dsimp only at hok ⊢
  split
  · rename_i hstop
    rw [if_pos hstop] at hok
    cases hok
  · exact hfits

/-- A read that returns true has found room for its records. -/
theorem read_fits {c : GameClient} {env : ReadEnv} {motionCapacity : UInt64}
    (hcapacity : env.motionCapacity = some motionCapacity) (hok : (c.read env).ok = true) :
    (c.read env).batch.records ≤ motionCapacity := by
  rcases read_cases c env with ⟨hfail, -⟩ | ⟨hfail, -⟩ | hread
  · rw [hfail] at hok
    cases hok
  · rw [hfail] at hok
    cases hok
  · rw [hread] at hok ⊢
    exact readRing_fits hcapacity hok

/-- A read that returns false has delivered nothing. -/
theorem delivered_of_read_failed {c : GameClient} {env : ReadEnv}
    (hfail : (c.read env).ok = false) : (c.read env).client.delivered = c.delivered := by
  rcases read_cases c env with ⟨-, hsame, -⟩ | ⟨-, error, -, hfault⟩ | hread
  · rw [hsame]
  · rw [hfault, GameClient.delivered_setError, GameClient.delivered_handleAll]
  rw [hread] at hfail ⊢
  rcases readRing_cases (c.handleAll (c.dispatched env)) env with
    ⟨-, hsame | ⟨error, -, hfault⟩⟩ | ⟨-, -, hcopy⟩
  · rw [hsame, GameClient.delivered_handleAll]
  · rw [hfault, GameClient.delivered_setError, GameClient.delivered_handleAll]
  rw [hcopy] at hfail ⊢
  rcases copyRecords_cases (c.handleAll (c.dispatched env)) env.ring env.ring.producer.head
      env.motionCapacity.isSome with ⟨-, hfault⟩ | ⟨-, hok, -⟩
  · rw [hfault, GameClient.delivered_setError]
    exact GameClient.delivered_handleAll c _
  · rw [hok] at hfail
    cases hfail

/-- The delivered records behind a read that returns true. -/
theorem ReadOk.delivered {now : GameClient} {env : ReadEnv} {r : ReadResult}
    {records : List Record} (h : ReadOk now env r records) :
    r.client.delivered = now.delivered ++ records := by
  rw [h.client, GameClient.delivered_log]
  rfl

end Hfior
