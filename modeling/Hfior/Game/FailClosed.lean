import Hfior.Game.Moves
import Hfior.Library.Traces

/-!
# The game client fails closed

A valid activation is a permit that every error, denial, revocation, overflow
and disconnect withdraws.  `signals` tells from an event or a call itself what
it does to the permit: from the kind and the arguments of the event, from what
a call dispatches, and from its result.  It does not ask what the client has
made of it.  `history` is the record of a run.

`permitted_run` says that a client is active only while its permit is open, so
no read and no acknowledge comes behind a fault without a valid activation in
between.
-/

namespace Hfior

/-! ## The state -/

/-- An active client is not faulted, and it has mapped a ring of a valid
capacity. -/
structure FailClosed (c : GameClient) : Prop where
  exclusive : c.active = true → c.faulted = false
  mapped : c.active = true → c.header = true ∧ isPowerOfTwoU32 c.capacity = true

namespace FailClosed

variable {c c' : GameClient}

theorem create : FailClosed .create where
  exclusive := nofun
  mapped := nofun

private theorem inactive (hactive : c'.active = false) : FailClosed c' where
  exclusive := by simp [hactive]
  mapped := by simp [hactive]

theorem move (h : FailClosed c) (hmove : GameMove c c') : FailClosed c' := by
  cases hmove with
  | store | deliver | sendAck | acknowledge => exact ⟨h.exclusive, h.mapped⟩
  | clearFault hactive => exact ⟨fun _ => rfl, h.mapped⟩
  | fault error hnamed => exact inactive rfl
  | disconnect => exact inactive rfl
  | activate a header hbounds hheader =>
    simp only [Activation.boundsValid, Bool.not_eq_true', Bool.or_eq_false_iff,
      Bool.not_eq_false'] at hbounds
    exact ⟨fun _ => rfl, fun _ => ⟨rfl, hbounds.1.1.1.2⟩⟩

theorem moves (h : FailClosed c) (hmoves : GameMoves c c') : FailClosed c' :=
  hmoves.keep (fun _ _ h hmove => h.move hmove) h

end FailClosed

theorem failClosed_run {calls : List GameCall} {c : GameClient}
    (hrun : gameMachine.run .create calls = some c) : FailClosed c :=
  game_invariant .create (fun _ _ h hmove => h.move hmove) hrun

/-- A client has an error exactly while it is faulted. -/
theorem error_named {calls : List GameCall} {c : GameClient}
    (hrun : gameMachine.run .create calls = some c) :
    (c.faulted = true ↔ c.error ≠ "") ∧ (c.faulted = false → c.errorText = "none") := by
  have hnamed : c.faulted = true ↔ c.error ≠ "" := by
    refine game_invariant (P := fun c => c.faulted = true ↔ c.error ≠ "") (by decide) ?_ hrun
    intro c c' h hmove
    cases hmove with
    | store | disconnect | deliver | sendAck | acknowledge => exact h
    | clearFault | activate => simp [GameClient.activate, GameClient.log]
    | fault error hnamed => simpa [GameClient.setError, GameClient.log] using hnamed
  refine ⟨hnamed, ?_⟩
  intro hclear
  have hempty : c.error = "" := by
    by_contra hne
    rw [hnamed.2 hne] at hclear
    cases hclear
  simp [GameClient.errorText, hempty]

/-! ## The permit -/

/-- What an event or a call does to the permit. -/
inductive StreamSignal where
  /-- A `stream_active` that passes all its checks. -/
  | granted
  /-- An error, a denial, a revocation, an overflow or a disconnect. -/
  | withdrawn
deriving DecidableEq, Repr

/-- All the checks of `stream_active`. -/
def Activation.valid (a : Activation) : Bool :=
  a.boundsValid && a.mapped.any a.headerValid

def QueueEvent.signals : QueueEvent → List StreamSignal
  | .global _ _ | .globalRemove => []
  | .active activation => [if activation.valid then .granted else .withdrawn]
  | .notify reason _ _ =>
    if reason = HYPRLAND_HF_INPUT_STREAM_V1_NOTIFY_REASON_OVERFLOW ∨
      reason = HYPRLAND_HF_INPUT_STREAM_V1_NOTIFY_REASON_REVOKED then [.withdrawn] else []
  | .denied _ | .revoked _ _ _ _ _ => [.withdrawn]

/-- The signals of some events, in order. -/
def eventSignals (events : List QueueEvent) : List StreamSignal :=
  events.flatMap QueueEvent.signals

/-- A `connect` that comes to its activation roundtrip. -/
def ConnectEnv.awaits (env : ConnectEnv) : Bool :=
  env.queue && env.wrapper && env.registry && env.registryRoundtrip &&
    env.globals.contains (.manager, true) && env.globals.contains (.seat, true) && env.stream

/-- The signals of a call: a disconnect, the events that it dispatches, and an
error if it fails.  A call that does not get behind the test of its arguments
and of the stream has none. -/
def GameClient.signals (c : GameClient) : GameCall → List StreamSignal
  | .event event => event.signals
  | .connect env =>
    if env.waylandDisplay && env.waylandSurface then
      .withdrawn :: (if env.awaits then eventSignals env.activation.events else []) ++
        if (c.connect env).1 then [] else [.withdrawn]
    else []
  | .disconnect => [.withdrawn]
  | .read env => eventSignals (c.dispatched env) ++
    if env.batch && c.active && c.header && !(c.read env).ok then [.withdrawn] else []
  | .acknowledge flush =>
    if c.active && c.stream && !(c.acknowledge flush).1 then [.withdrawn] else []

/-- The signals of a run. -/
def GameClient.history (c : GameClient) : List GameCall → List StreamSignal
  | [] => []
  | call :: calls => c.signals call ++ (c.after call).history calls

/-- A valid activation has happened behind the last fault. -/
def Permitted (signals : List StreamSignal) : Prop :=
  Traces.IsOpen (· = .granted) (· = .withdrawn) signals

/-! ## What needs the permit -/

/-- A read that returns true, or that leaves motions or a total behind. -/
def ReadResult.Yields (r : ReadResult) : Prop :=
  r.ok = true ∨ r.motions ≠ [] ∨ r.batch.records ≠ 0

/-- The request of an entry. -/
def GameEntry.request : GameEntry → Option AckRequest
  | .ackSent request => some request
  | _ => none

/-- The ACKs that the client has issued. -/
def GameClient.ackRequests (c : GameClient) : List AckRequest :=
  c.trace.filterMap GameEntry.request

section
variable {c : GameClient} {env : ReadEnv}

theorem not_yields_readFailed {client : GameClient} {batch : Batch}
    (hrecords : batch.records = 0) : ¬ (GameClient.readFailed batch [] client).Yields := by
  simp [ReadResult.Yields, GameClient.readFailed, hrecords]

/-- Behind the dispatch only an active client yields anything. -/
theorem readRing_yields (h : (c.readRing env).Yields) : c.active = true := by
  unfold GameClient.readRing at h
  split at h
  · exact absurd h (not_yields_readFailed rfl)
  · rename_i hready
    simp only [Bool.or_eq_true, Bool.not_eq_true', not_or, Bool.not_eq_false] at hready
    exact hready.1

theorem read_yields (h : (c.read env).Yields) :
    (c.handleAll (c.dispatched env)).active = true := by
  unfold GameClient.read at h
  split at h
  · exact absurd h (not_yields_readFailed rfl)
  rename_i hbatch
  split at h
  · exact absurd h (not_yields_readFailed rfl)
  rename_i hready
  simp only [Bool.not_eq_true', Bool.not_eq_false, Bool.or_eq_true, not_or] at hbatch hready
  cases hdispatch : env.dispatch with
  | none =>
    have hdispatched : c.dispatched env = [] := by simp [GameClient.dispatched, hdispatch]
    rw [hdispatched]
    exact hready.1
  | some dispatch =>
    have hdispatched : c.dispatched env = dispatch.events := by
      simp [GameClient.dispatched, hbatch, hready.1, hready.2, hdispatch]
    simp only [hdispatch] at h
    rw [hdispatched]
    split at h
    · exact absurd h (not_yields_readFailed rfl)
    · exact readRing_yields h

/-- A read that does not pass its first test does nothing. -/
theorem read_idle (hidle : (env.batch && c.active && c.header) = false) :
    (c.read env).client = c := by
  unfold GameClient.read
  split
  · rfl
  rename_i hbatch
  split
  · rfl
  rename_i hready
  simp_all

/-- A read that fails behind its first test leaves an inactive client. -/
theorem readRing_inactive (hclosed : FailClosed c) (hfail : (c.readRing env).ok = false) :
    (c.readRing env).client.active = false := by
  unfold GameClient.readRing at hfail ⊢
  split
  · rename_i hidle
    show c.active = false
    by_contra hactive
    rw [Bool.not_eq_false] at hactive
    simp [hactive, hclosed.exclusive hactive] at hidle
  rename_i hready
  rw [if_neg hready] at hfail
  dsimp only at hfail ⊢
  split
  · rfl
  rename_i hdrops
  rw [if_neg hdrops] at hfail
  split
  · rfl
  rename_i hbounds
  rw [if_neg hbounds] at hfail
  split
  · rfl
  rename_i hbuffer
  rw [if_neg hbuffer] at hfail
  rcases copyRecords_cases c env.ring env.ring.producer.head env.motionCapacity.isSome with
    ⟨-, hclient⟩ | ⟨expected, hok, -⟩
  · rw [hclient]
    rfl
  · rw [hok] at hfail
    cases hfail

theorem read_inactive (hclosed : FailClosed c)
    (hready : (env.batch && c.active && c.header) = true) (hfail : (c.read env).ok = false) :
    (c.read env).client.active = false := by
  simp only [Bool.and_eq_true] at hready
  obtain ⟨⟨hbatch, hactive⟩, hheader⟩ := hready
  unfold GameClient.read at hfail ⊢
  simp only [hbatch, hactive, hheader, Bool.not_true, Bool.false_eq_true, Bool.or_self,
    if_false] at hfail ⊢
  cases hdispatch : env.dispatch with
  | none =>
    simp only [hdispatch] at hfail
    exact readRing_inactive hclosed hfail
  | some dispatch =>
    simp only [hdispatch] at hfail
    dsimp only
    split
    · rfl
    · rename_i hsucceeds
      rw [if_neg hsucceeds] at hfail
      exact readRing_inactive (hclosed.moves (handleAll_moves c dispatch.events)) hfail

/-- An acknowledge that returns true, or that issues an ACK, finds the client
active. -/
theorem acknowledge_active {flush : IoResult}
    (h : (c.acknowledge flush).1 = true ∨ (c.acknowledge flush).2.ackRequests ≠ c.ackRequests) :
    c.active = true := by
  by_contra hactive
  rw [Bool.not_eq_true] at hactive
  simp [GameClient.acknowledge, hactive] at h

theorem acknowledge_inactive {flush : IoResult} (hready : (c.active && c.stream) = true)
    (hfail : (c.acknowledge flush).1 = false) : (c.acknowledge flush).2.active = false := by
  rw [Bool.and_eq_true] at hready
  unfold GameClient.acknowledge at hfail ⊢
  simp only [hready.1, hready.2, Bool.not_true, Bool.or_self, Bool.false_eq_true,
    if_false] at hfail ⊢
  split
  · rename_i hcurrent
    rw [if_pos hcurrent] at hfail
    cases hfail
  rename_i hbehind
  rw [if_neg hbehind] at hfail
  split
  · cases hfail
  · cases hfail
  · rfl

end

/-! ## An active client has a permit -/

section
variable {c c' : GameClient} {before : List StreamSignal}

/-- Behind a valid activation. -/
theorem permitted_granted : Permitted (before ++ [.granted]) :=
  Traces.isOpen_snoc_of_opens rfl

theorem registryGlobal_active (c : GameClient) (name : GlobalInterface) (bound : Bool) :
    (c.registryGlobal name bound).active = c.active := by
  unfold GameClient.registryGlobal
  cases name with
  | other => rfl
  | _ =>
    dsimp only
    split <;> rfl

theorem handle_permitted (h : c.active = true → Permitted before) (event : QueueEvent)
    (hactive : (c.handle event).active = true) : Permitted (before ++ event.signals) := by
  cases event with
  | global name bound =>
    rw [QueueEvent.signals, List.append_nil]
    exact h ((registryGlobal_active c name bound).symm.trans hactive)
  | globalRemove =>
    rw [QueueEvent.signals, List.append_nil]
    exact h hactive
  | active a =>
    -- Only an activation that passes all the checks leaves an active client.
    have hactive : (c.streamActive a).active = true := hactive
    unfold GameClient.streamActive at hactive
    split at hactive
    · cases hactive
    rename_i hbounds
    split at hactive
    · cases hactive
    rename_i header hmapped
    split at hactive
    · cases hactive
    rename_i hheader
    have hvalid : a.valid = true := by
      simp only [Bool.not_eq_true', Bool.not_eq_false] at hbounds hheader
      simp [Activation.valid, hbounds, hmapped, hheader]
    rw [QueueEvent.signals, if_pos hvalid]
    exact permitted_granted
  | notify reason _ _ =>
    have hactive : (c.streamNotify reason).active = true := hactive
    unfold GameClient.streamNotify at hactive
    split at hactive
    · cases hactive
    rename_i hoverflow
    split at hactive
    · cases hactive
    rename_i hrevoked
    rw [beq_iff_eq] at hoverflow hrevoked
    rw [QueueEvent.signals, if_neg (not_or.2 ⟨hoverflow, hrevoked⟩), List.append_nil]
    exact h hactive
  | denied reason => cases hactive
  | revoked _ _ _ _ _ => cases hactive

theorem handleAll_permitted (h : c.active = true → Permitted before) (events : List QueueEvent)
    (hactive : (c.handleAll events).active = true) :
    Permitted (before ++ eventSignals events) := by
  induction events generalizing c before with
  | nil =>
    rw [eventSignals, List.flatMap_nil, List.append_nil]
    exact h hactive
  | cons event events ih =>
    rw [eventSignals, List.flatMap_cons, ← List.append_assoc]
    exact ih (handle_permitted h event) hactive

/-- What the registry has announced is what is bound. -/
theorem registryGlobal_bound (c : GameClient) (name : GlobalInterface) (bound : Bool) :
    ((c.registryGlobal name bound).manager = true →
      c.manager = true ∨ (name, bound) = (.manager, true)) ∧
    ((c.registryGlobal name bound).seat = true →
      c.seat = true ∨ (name, bound) = (.seat, true)) := by
  unfold GameClient.registryGlobal
  cases name with
  | manager =>
    dsimp only
    split
    · exact ⟨fun h => .inr (congrArg _ h), .inl⟩
    · exact ⟨.inl, .inl⟩
  | seat =>
    dsimp only
    split
    · exact ⟨.inl, fun h => .inr (congrArg _ h)⟩
    · exact ⟨.inl, .inl⟩
  | other => exact ⟨.inl, .inl⟩

theorem bound_of_globals (globals : List (GlobalInterface × Bool)) (c : GameClient) :
    ((globals.foldl (fun c g => c.registryGlobal g.1 g.2) c).manager = true →
      c.manager = true ∨ (.manager, true) ∈ globals) ∧
    ((globals.foldl (fun c g => c.registryGlobal g.1 g.2) c).seat = true →
      c.seat = true ∨ (.seat, true) ∈ globals) := by
  induction globals generalizing c with
  | nil => exact ⟨.inl, .inl⟩
  | cons g globals ih =>
    obtain ⟨hmanager, hseat⟩ := ih (c.registryGlobal g.1 g.2)
    obtain ⟨hmanager', hseat'⟩ := registryGlobal_bound c g.1 g.2
    rw [List.foldl_cons]
    constructor
    · intro h
      rcases hmanager h with h | hmem
      · rcases hmanager' h with h | heq
        · exact .inl h
        · exact .inr (List.mem_cons.2 (.inl heq.symm))
      · exact .inr (List.mem_cons_of_mem _ hmem)
    · intro h
      rcases hseat h with h | hmem
      · rcases hseat' h with h | heq
        · exact .inl h
        · exact .inr (List.mem_cons.2 (.inl heq.symm))
      · exact .inr (List.mem_cons_of_mem _ hmem)

/-- Binding does not activate. -/
theorem registryGlobals_active (globals : List (GlobalInterface × Bool)) (c : GameClient) :
    (globals.foldl (fun c g => c.registryGlobal g.1 g.2) c).active = c.active := by
  induction globals generalizing c with
  | nil => rfl
  | cons g globals ih =>
    rw [List.foldl_cons, ih]
    exact registryGlobal_active c g.1 g.2

/-- A `connect` that returns true has awaited its activation, and it returns
false with a client that is not active. -/
theorem connect_result (c : GameClient) {env : ConnectEnv}
    (harguments : (env.waylandDisplay && env.waylandSurface) = true) :
    (c.connect env).1 = true ∧ env.awaits = true ∧
      (∃ c' : GameClient, c'.active = false ∧ (c.connect env).2 = c'.handleAll env.activation.events) ∨
    (c.connect env).1 = false ∧ (c.connect env).2.isActive = false := by
  rw [Bool.and_eq_true] at harguments
  unfold GameClient.connect
  rw [if_neg (by simp [harguments])]
  dsimp only
  split
  · exact .inr ⟨rfl, rfl⟩
  rename_i hqueue
  split
  · exact .inr ⟨rfl, rfl⟩
  rename_i hwrapper
  split
  · exact .inr ⟨rfl, rfl⟩
  rename_i hregistry
  unfold GameClient.bindGlobals
  have hbound := bound_of_globals env.globals { c.disconnect with
    faulted := false, error := "", queue := env.queue, registry := env.registry }
  have hidle := registryGlobals_active env.globals { c.disconnect with
    faulted := false, error := "", queue := env.queue, registry := env.registry }
  dsimp only
  generalize env.globals.foldl _ _ = bound at hbound hidle ⊢
  split
  · exact .inr ⟨rfl, rfl⟩
  rename_i hroundtrip
  split
  · exact .inr ⟨rfl, rfl⟩
  rename_i hmanager
  split
  · exact .inr ⟨rfl, rfl⟩
  rename_i hseat
  split
  · exact .inr ⟨rfl, rfl⟩
  rename_i hstream
  simp only [Bool.not_eq_true', Bool.not_eq_false] at hqueue hwrapper hregistry hroundtrip
  simp only [Bool.not_eq_true', Bool.not_eq_false] at hmanager hseat hstream
  have hmanager := (hbound.1 hmanager).resolve_left Bool.false_ne_true
  have hseat := (hbound.2 hseat).resolve_left Bool.false_ne_true
  have hawaits : env.awaits = true := by
    simp [ConnectEnv.awaits, hqueue, hwrapper, hregistry, hroundtrip, hmanager, hseat, hstream]
  unfold GameClient.awaitActivation
  dsimp only
  split
  · exact .inr ⟨rfl, rfl⟩
  · cases hactive : (GameClient.handleAll { bound with stream := env.stream }
      env.activation.events).isActive with
    | false => exact .inr ⟨rfl, rfl⟩
    | true => exact .inl ⟨rfl, hawaits, { bound with stream := env.stream }, hidle, rfl⟩

/-- Behind every call. -/
theorem after_permitted (h : c.active = true → Permitted before) (hclosed : FailClosed c)
    (call : GameCall) (hactive : (c.after call).active = true) :
    Permitted (before ++ c.signals call) := by
  cases call with
  | event event => exact handle_permitted h event hactive
  | connect env =>
    cases harguments : env.waylandDisplay && env.waylandSurface with
    | false =>
      have hsame : c.connect env = (false, c) := by
        rw [Bool.and_eq_false_iff] at harguments
        rw [GameClient.connect, if_pos (by simpa using harguments)]
      have hactive : (c.connect env).2.active = true := hactive
      rw [hsame] at hactive
      simp only [GameClient.signals, harguments, Bool.false_eq_true, if_false, List.append_nil]
      exact h hactive
    | true =>
      have hfresh := hclosed.moves (connect_moves c env)
      simp only [GameClient.signals, harguments, if_true]
      rcases connect_result c harguments with ⟨hok, hawaits, c', hidle, hconnect⟩ |
        ⟨hfail, hinactive⟩
      · have hactive : (c.connect env).2.active = true := hactive
        rw [hconnect] at hactive
        have hnone : c'.active = true → Permitted (before ++ [.withdrawn]) := by
          intro hactive
          rw [hidle] at hactive
          cases hactive
        have hevents := handleAll_permitted hnone env.activation.events hactive
        simpa [hok, hawaits] using hevents
      · have hactive : (c.connect env).2.active = true := hactive
        rw [GameClient.isActive, hactive, hfresh.exclusive hactive] at hinactive
        cases hinactive
  | disconnect => cases hactive
  | read env =>
    have hactive : (c.read env).client.active = true := hactive
    cases hready : env.batch && c.active && c.header with
    | false =>
      have hnone : c.dispatched env = [] := by simp [GameClient.dispatched, hready]
      rw [read_idle hready] at hactive
      simpa [GameClient.signals, hready, hnone, eventSignals] using h hactive
    | true =>
      cases hok : (c.read env).ok with
      | false =>
        rw [read_inactive hclosed hready hok] at hactive
        cases hactive
      | true =>
        have hevents := handleAll_permitted h _ (read_yields (.inl hok))
        simpa [GameClient.signals, hready, hok] using hevents
  | acknowledge flush =>
    have hactive : (c.acknowledge flush).2.active = true := hactive
    have hbefore : c.active = true := by
      by_contra hidle
      rw [Bool.not_eq_true] at hidle
      simp [GameClient.acknowledge, hidle] at hactive
    cases hready : c.active && c.stream with
    | false => simpa [GameClient.signals, hready] using h hbefore
    | true =>
      cases hok : (c.acknowledge flush).1 with
      | false =>
        rw [acknowledge_inactive hready hok] at hactive
        cases hactive
      | true => simpa [GameClient.signals, hready, hok] using h hbefore

/-- Along a run. -/
theorem permitted_run {calls : List GameCall} (h : c.active = true → Permitted before)
    (hclosed : FailClosed c) (hrun : gameMachine.run c calls = some c')
    (hactive : c'.active = true) : Permitted (before ++ c.history calls) := by
  induction calls generalizing c before with
  | nil =>
    obtain rfl := Option.some.inj hrun
    rw [GameClient.history, List.append_nil]
    exact h hactive
  | cons call calls ih =>
    obtain ⟨next, hstep, hrest⟩ := Machine.run_cons.1 hrun
    obtain rfl := Option.some.inj hstep
    rw [GameClient.history, ← List.append_assoc]
    exact ih (after_permitted h hclosed call) (hclosed.moves (after_moves c call)) hrest

end

/-! ## The result -/

/-- From `hfior_game_client_create`, behind any calls and events in any order:
the client is not active and faulted, and if a read yields anything, with the events
that it dispatches, or if an acknowledge returns true or issues an ACK, then
a valid activation has happened behind the last fault. -/
theorem game_client_fails_closed {calls : List GameCall} {c : GameClient}
    (hrun : gameMachine.run .create calls = some c) :
    ¬ (c.active = true ∧ c.faulted = true) ∧
    (∀ env, (c.read env).Yields →
      Permitted (GameClient.create.history calls ++ eventSignals (c.dispatched env))) ∧
    ∀ flush, (c.acknowledge flush).1 = true ∨
        (c.acknowledge flush).2.ackRequests ≠ c.ackRequests →
      Permitted (GameClient.create.history calls) := by
  have hclosed : FailClosed c := failClosed_run hrun
  have hpermitted : c.active = true → Permitted ([] ++ GameClient.create.history calls) :=
    permitted_run nofun .create hrun
  refine ⟨?_, ?_, ?_⟩
  · rintro ⟨hactive, hfaulted⟩
    rw [hclosed.exclusive hactive] at hfaulted
    cases hfaulted
  · intro env hyields
    exact handleAll_permitted hpermitted _ (read_yields hyields)
  · intro flush huse
    exact hpermitted (acknowledge_active huse)

/-- A stream that is read and acknowledged, and an overflow. -/
def overflowCalls : List GameCall :=
  [.connect grantedStream, .read gameRead, .acknowledge .done,
    .event (.notify HYPRLAND_HF_INPUT_STREAM_V1_NOTIFY_REASON_OVERFLOW 0 2)]

theorem game_client_fails_closed_overflow :
    (∃ c, gameMachine.run .create (overflowCalls.take 1) = some c ∧
      (c.read gameRead).ok = true ∧
      Permitted (GameClient.create.history (overflowCalls.take 1) ++
        eventSignals (c.dispatched gameRead))) ∧
    ∃ c, gameMachine.run .create overflowCalls = some c ∧
      GameClient.create.history overflowCalls = [.withdrawn, .granted, .withdrawn] ∧
      (c.read gameRead).ok = false ∧ (c.acknowledge .done).1 = false := by
  have hrun : gameMachine.run .create (overflowCalls.take 1) = some _ := rfl
  refine ⟨⟨_, hrun, by decide, (game_client_fails_closed hrun).2.1 gameRead (.inl (by decide))⟩,
    _, rfl, by decide, by decide, by decide⟩

end Hfior
