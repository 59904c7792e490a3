import Hfior.Game.Client
import Hfior.Library.Machine
import Mathlib.Logic.Relation

/-!
# The moves of the game client

A call of the client may bind globals, dispatch events, read and fault, in
one of many orders.  `GameMove` lists the few things that it can do at once,
and `after_moves` says that every call and every event is a sequence of
these.  So an invariant of the client is proved move by move, and
`game_invariant` carries it to every run of `gameMachine`.
-/

namespace Hfior

/-- What a client does at once, with what it has checked before. -/
inductive GameMove : GameClient → GameClient → Prop where
  /-- A store to fields that guard nothing. -/
  | store (c : GameClient) (queue registry manager stream seat : Bool)
      (sequenceErrors : UInt64) :
      GameMove c { c with
        queue := queue, registry := registry, manager := manager, stream := stream
        seat := seat, sequenceErrors := sequenceErrors }
  /-- The store of a `connect` behind its disconnect. -/
  | clearFault (c : GameClient) (hactive : c.active = false) :
      GameMove c { c with faulted := false, error := "" }
  | fault (c : GameClient) (error : String) (hnamed : error ≠ "") :
      GameMove c (c.setError error)
  | disconnect (c : GameClient) : GameMove c c.disconnect
  | activate (c : GameClient) (a : Activation) (header : RingHeader)
      (hbounds : a.boundsValid = true) (hheader : a.headerValid header = true) :
      GameMove c (c.activate a header)
  | deliver (c : GameClient) (head : UInt64) (records : List Record) (expected : UInt64)
      (hactive : c.active = true) (hle : c.localTail ≤ head)
      (hlength : records.length = (head - c.localTail).toNat) :
      GameMove c (GameClient.log { c with localTail := head, expectedSequence := expected }
        (.delivered c.localTail records))
  | sendAck (c : GameClient) (hactive : c.active = true) :
      GameMove c { c.log (.ackSent c.ackRequest) with acknowledgedTail := c.localTail }
  | acknowledge (c : GameClient) (hactive : c.active = true) :
      GameMove c (c.log .acknowledged)

/-- Some moves, one after the other. -/
abbrev GameMoves : GameClient → GameClient → Prop := Relation.ReflTransGen GameMove

section
variable {c c' : GameClient}

/-- A store behind some moves. -/
theorem GameMoves.store (h : GameMoves c c') {queue registry manager stream seat : Bool}
    {sequenceErrors : UInt64} :
    GameMoves c { c' with
      queue := queue, registry := registry, manager := manager, stream := stream
      seat := seat, sequenceErrors := sequenceErrors } :=
  h.tail (.store _ _ _ _ _ _ _)

theorem GameMoves.fault (h : GameMoves c c') {error : String} (hnamed : error ≠ "") :
    GameMoves c (c'.setError error) :=
  h.tail (.fault c' error hnamed)

/-! ## Events -/

theorem streamActive_moves (c : GameClient) (a : Activation) :
    GameMoves c (c.streamActive a) := by
  unfold GameClient.streamActive
  split
  · exact .single (.fault c _ (by decide))
  rename_i hbounds
  rw [Bool.not_eq_true', Bool.not_eq_false] at hbounds
  split
  · exact .single (.fault c _ (by decide))
  split
  · exact .single (.fault c _ (by decide))
  rename_i hheader
  rw [Bool.not_eq_true', Bool.not_eq_false] at hheader
  exact .single (.activate c a _ hbounds hheader)

theorem streamNotify_moves (c : GameClient) (reason : UInt32) :
    GameMoves c (c.streamNotify reason) := by
  unfold GameClient.streamNotify
  split
  · exact .single (.fault c _ (by decide))
  split
  · exact .single (.fault c _ (by decide))
  · exact .refl

theorem registryGlobal_moves (c : GameClient) (name : GlobalInterface) (bound : Bool) :
    GameMoves c (c.registryGlobal name bound) := by
  unfold GameClient.registryGlobal
  cases name with
  | manager =>
    dsimp only
    split
    · exact GameMoves.store .refl
    · exact .refl
  | seat =>
    dsimp only
    split
    · exact GameMoves.store .refl
    · exact .refl
  | other => exact .refl

theorem handle_moves (c : GameClient) (event : QueueEvent) : GameMoves c (c.handle event) := by
  cases event with
  | global name bound => exact registryGlobal_moves c name bound
  | globalRemove => exact .refl
  | active activation => exact streamActive_moves c activation
  | notify reason _ _ => exact streamNotify_moves c reason
  | denied reason =>
    have hnamed : "HFIOR authorization denied (reason " ++ toString reason.toNat ++ ")" ≠ "" := by
      simp
    exact .single (.fault c _ hnamed)
  | revoked _ _ _ _ _ => exact .single (.fault c _ (by decide))

theorem handleAll_moves (c : GameClient) (events : List QueueEvent) :
    GameMoves c (c.handleAll events) := by
  induction events generalizing c with
  | nil => exact .refl
  | cons event events ih =>
    rw [GameClient.handleAll, List.foldl_cons]
    exact (handle_moves c event).trans (ih _)

/-! ## Calls -/

theorem bindGlobals_moves (c : GameClient) (env : ConnectEnv) :
    GameMoves c (c.bindGlobals env).2 := by
  have hglobals : ∀ (globals : List (GlobalInterface × Bool)) (c : GameClient),
      GameMoves c (globals.foldl (fun c g => c.registryGlobal g.1 g.2) c) := by
    intro globals
    induction globals with
    | nil => exact fun c => .refl
    | cons g globals ih => exact fun c => (registryGlobal_moves c g.1 g.2).trans (ih _)
  have hbound := hglobals env.globals c
  unfold GameClient.bindGlobals
  dsimp only
  generalize env.globals.foldl _ c = bound at hbound ⊢
  split
  · exact hbound.fault (by decide)
  split
  · exact hbound.fault (by decide)
  split
  · exact hbound.fault (by decide)
  have hstream : GameMoves c { bound with stream := env.stream } := hbound.store
  split
  · exact hstream.fault (by decide)
  unfold GameClient.awaitActivation
  dsimp only
  split
  · exact GameMoves.fault (hstream.trans (handleAll_moves _ _)) (by decide)
  · exact hstream.trans (handleAll_moves _ _)

theorem connect_moves (c : GameClient) (env : ConnectEnv) :
    GameMoves c (c.connect env).2 := by
  unfold GameClient.connect
  split
  · exact .refl
  dsimp only
  have hdisconnected : GameMoves c { c.disconnect with faulted := false, error := "" } :=
    .tail (.single (.disconnect c)) (.clearFault _ rfl)
  have hcleared : GameMoves c { c.disconnect with
      faulted := false, error := "", queue := env.queue } := hdisconnected.store
  split
  · exact hcleared.fault (by decide)
  split
  · exact hcleared.fault (by decide)
  have hregistry : GameMoves c { c.disconnect with
      faulted := false, error := "", queue := env.queue, registry := env.registry } :=
    hdisconnected.store
  split
  · exact hregistry.fault (by decide)
  · exact hregistry.trans (bindGlobals_moves _ env)

theorem slotsFrom_length (slots : Nat → Record) (capacity : UInt32) (first : UInt64)
    (count : Nat) : (slotsFrom slots capacity first count).length = count := by
  simp [slotsFrom]

/-- The copy loop counts a sequence error, or it delivers all the records. -/
theorem copyRecords_cases (c : GameClient) (ring : RingHeader) (head : UInt64)
    (writes : Bool) :
    (c.copyRecords ring head writes).ok = false ∧
      (c.copyRecords ring head writes).client =
        { c with sequenceErrors := c.sequenceErrors + 1 }.setError
          "HFIOR sequence gap or reordering detected" ∨
    ∃ expected, (c.copyRecords ring head writes).ok = true ∧
      (c.copyRecords ring head writes).client =
        GameClient.log { c with localTail := head, expectedSequence := expected }
          (.delivered c.localTail
            (slotsFrom ring.records c.capacity c.localTail (head - c.localTail).toNat)) := by
  unfold GameClient.copyRecords
  dsimp only
  split
  · exact .inl ⟨rfl, rfl⟩
  · exact .inr ⟨_, rfl, rfl⟩

/-- Behind the dispatch a read does nothing, or it faults, or it copies from
the local tail up to the head. -/
theorem readRing_cases (c : GameClient) (env : ReadEnv) :
    (c.readRing env).ok = false ∧
      ((c.readRing env).client = c ∨
        ∃ error, error ≠ "" ∧ (c.readRing env).client = c.setError error) ∨
    c.active = true ∧ c.localTail ≤ env.ring.producer.head ∧
      c.readRing env =
        c.copyRecords env.ring env.ring.producer.head env.motionCapacity.isSome := by
  unfold GameClient.readRing
  split
  · exact .inl ⟨rfl, .inl rfl⟩
  rename_i hready
  simp only [Bool.or_eq_true, Bool.not_eq_true', not_or, Bool.not_eq_false] at hready
  dsimp only
  split
  · exact .inl ⟨rfl, .inr ⟨_, by decide, rfl⟩⟩
  split
  · exact .inl ⟨rfl, .inr ⟨_, by decide, rfl⟩⟩
  rename_i hbounds
  simp only [Bool.or_eq_true, decide_eq_true_eq, not_or, UInt64.not_lt] at hbounds
  split
  · exact .inl ⟨rfl, .inr ⟨_, by decide, rfl⟩⟩
  · exact .inr ⟨hready.1, hbounds.1, rfl⟩

/-- The events that a read dispatches. -/
def GameClient.dispatched (c : GameClient) (env : ReadEnv) : List QueueEvent :=
  if env.batch && c.active && c.header then (env.dispatch.map Dispatch.events).getD []
  else []

/-- A read does nothing, or it faults behind its events, or it goes on with
the client that they leave. -/
theorem read_cases (c : GameClient) (env : ReadEnv) :
    (c.read env).ok = false ∧ (c.read env).client = c ∧ c.dispatched env = [] ∨
    (c.read env).ok = false ∧
      (∃ error, error ≠ "" ∧
        (c.read env).client = (c.handleAll (c.dispatched env)).setError error) ∨
    c.read env = (c.handleAll (c.dispatched env)).readRing env := by
  unfold GameClient.read
  split
  · rename_i hbatch
    rw [Bool.not_eq_true'] at hbatch
    exact .inl ⟨rfl, rfl, by simp [GameClient.dispatched, hbatch]⟩
  rename_i hbatch
  split
  · rename_i hidle
    refine .inl ⟨rfl, rfl, ?_⟩
    simp only [Bool.or_eq_true, Bool.not_eq_true'] at hidle
    rcases hidle with hinactive | hheader
    · simp [GameClient.dispatched, hinactive]
    · simp [GameClient.dispatched, hheader]
  rename_i hready
  simp only [Bool.not_eq_true', Bool.not_eq_false, Bool.or_eq_true, not_or] at hbatch hready
  right
  cases hdispatch : env.dispatch with
  | none =>
    have hdispatched : c.dispatched env = [] := by simp [GameClient.dispatched, hdispatch]
    rw [hdispatched]
    exact .inr rfl
  | some dispatch =>
    have hdispatched : c.dispatched env = dispatch.events := by
      simp [GameClient.dispatched, hbatch, hready.1, hready.2, hdispatch]
    rw [hdispatched]
    dsimp only
    split
    · exact .inl ⟨rfl, _, by decide, rfl⟩
    · exact .inr rfl

/-- The events of a read come between its two tests of the flags. -/
theorem read_moves (c : GameClient) (env : ReadEnv) : GameMoves c (c.read env).client := by
  have hevents := handleAll_moves c (c.dispatched env)
  rcases read_cases c env with ⟨-, hsame, -⟩ | ⟨-, error, hnamed, hfault⟩ | hread
  · rw [hsame]
  · rw [hfault]
    exact hevents.fault hnamed
  rw [hread]
  generalize c.handleAll (c.dispatched env) = c' at hevents ⊢
  rcases readRing_cases c' env with ⟨-, hsame | ⟨error, hnamed, hfault⟩⟩ | ⟨hactive, hle, hcopy⟩
  · rw [hsame]
    exact hevents
  · rw [hfault]
    exact hevents.fault hnamed
  rw [hcopy]
  rcases copyRecords_cases c' env.ring env.ring.producer.head env.motionCapacity.isSome with
    ⟨-, hfault⟩ | ⟨expected, -, hdeliver⟩
  · rw [hfault]
    exact hevents.store.fault (by decide)
  · rw [hdeliver]
    exact hevents.tail (.deliver c' _ _ _ hactive hle (slotsFrom_length _ _ _ _))

theorem acknowledge_moves (c : GameClient) (flush : IoResult) :
    GameMoves c (c.acknowledge flush).2 := by
  unfold GameClient.acknowledge
  split
  · exact .refl
  rename_i hready
  simp only [Bool.or_eq_true, Bool.not_eq_true', not_or, Bool.not_eq_false] at hready
  split
  · exact .single (.acknowledge c hready.1)
  have hsent : GameMoves c
      { c.log (.ackSent c.ackRequest) with acknowledgedTail := c.localTail } :=
    .single (.sendAck c hready.1)
  dsimp only
  split
  · exact hsent.tail (.acknowledge _ hready.1)
  · exact hsent.tail (.acknowledge _ hready.1)
  · exact hsent.fault (by decide)

end

/-! ## Every run -/

/-- A call of the program, or an event that some dispatch delivers. -/
inductive GameCall where
  | event (event : QueueEvent)
  | connect (env : ConnectEnv)
  | disconnect
  | read (env : ReadEnv)
  | acknowledge (flush : IoResult)

/-- The client behind a call. -/
def GameClient.after (c : GameClient) : GameCall → GameClient
  | .event event => c.handle event
  | .connect env => (c.connect env).2
  | .disconnect => c.disconnect
  | .read env => (c.read env).client
  | .acknowledge flush => (c.acknowledge flush).2

/-- The client under any calls. -/
def gameMachine : Machine GameClient GameCall where
  step c call := some (c.after call)

theorem after_moves (c : GameClient) (call : GameCall) : GameMoves c (c.after call) := by
  cases call with
  | event event => exact handle_moves c event
  | connect env => exact connect_moves c env
  | disconnect => exact .single (.disconnect c)
  | read env => exact read_moves c env
  | acknowledge flush => exact acknowledge_moves c flush

/-- What every move keeps, some moves keep. -/
theorem GameMoves.keep {P : GameClient → Prop} (hmove : ∀ c c', P c → GameMove c c' → P c')
    {c c' : GameClient} (hc : P c) (h : GameMoves c c') : P c' := by
  induction h with
  | refl => exact hc
  | tail _ hlast ih => exact hmove _ _ ih hlast

/-- What every move keeps holds in every run. -/
theorem game_invariant {P : GameClient → Prop} (hcreate : P .create)
    (hmove : ∀ c c', P c → GameMove c c' → P c') {calls : List GameCall} {c : GameClient}
    (hrun : gameMachine.run .create calls = some c) : P c := by
  refine Machine.run_invariant P ?_ hcreate hrun
  intro s call t hs hstep
  obtain rfl := Option.some.inj hstep
  exact (after_moves s call).keep hmove hs

end Hfior
