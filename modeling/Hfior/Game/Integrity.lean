import Hfior.Game.Modes

/-!
# What a valid result of the game benchmark certifies

`WriteResults` calls a result valid if nothing has failed, the rate is high
enough, and there are samples.  `Unbroken` says what that means for the
stream: since the measurement started nothing has faulted or been activated
again, and the delivered records are in sequence.

`Unbroken.append` is about one entry of the trace, and each call that succeeds
is one or two of them.  A frame keeps the ledger (`Certified.frame`), and so
does every run (`valid_result`).
-/

namespace Hfior

/-! ## The stream since the measurement started -/

namespace GameEntry

/-- The entry of a valid activation. -/
def Activates : GameEntry → Prop
  | .activated _ => True
  | _ => False

/-- An error, a denial, a revocation, an overflow or a disconnect. -/
def Faults : GameEntry → Prop
  | .fault | .disconnected => True
  | _ => False

end GameEntry

/-- The records that the client has delivered behind some entries. -/
def GameClient.deliveredSince (c : GameClient) (entries : Nat) : List Record :=
  deliveredRecords (c.trace.drop entries)

/-- Nothing has broken the stream since the trace had so many entries. -/
structure Unbroken (entries : Nat) (c : GameClient) : Prop where
  active : c.active = true
  faulted : c.faulted = false
  length : entries ≤ c.trace.length
  quiet : ∀ entry ∈ c.trace.drop entries, ¬ entry.Faults ∧ ¬ entry.Activates
  inSequence : ∃ expected, InSequence expected (c.deliveredSince entries) ∧
    c.expectedSequence = expectedAfter expected (c.deliveredSince entries)

theorem Unbroken.isActive {entries : Nat} {c : GameClient} (h : Unbroken entries c) :
    c.isActive = true := by
  simp [GameClient.isActive, h.active, h.faulted]

/-- Where the measurement starts. -/
theorem unbroken_start {c : GameClient} (h : c.isActive = true) :
    Unbroken c.trace.length c := by
  simp only [GameClient.isActive, Bool.and_eq_true, Bool.not_eq_true'] at h
  have hnil : c.trace.drop c.trace.length = [] := List.drop_length
  refine ⟨h.1, h.2, Nat.le_refl _, ?_, c.expectedSequence, ?_, ?_⟩
  · simp [hnil]
  · simp [GameClient.deliveredSince, hnil, deliveredRecords, InSequence]
  · simp [GameClient.deliveredSince, hnil, deliveredRecords, expectedAfter]

section
variable {entries : Nat} {c c' : GameClient}

theorem deliveredSince_append {entry : GameEntry} (hle : entries ≤ c.trace.length)
    (htrace : c'.trace = c.trace ++ [entry]) :
    c'.deliveredSince entries = c.deliveredSince entries ++ entry.records := by
  rw [GameClient.deliveredSince, htrace, List.drop_append_of_le_length hle,
    deliveredRecords_append, deliveredRecords_single]
  rfl

/-- One more entry, which breaks nothing. -/
theorem Unbroken.append (h : Unbroken entries c) (entry : GameEntry)
    (htrace : c'.trace = c.trace ++ [entry]) (hentry : ¬ entry.Faults ∧ ¬ entry.Activates)
    (hactive : c'.active = true) (hfaulted : c'.faulted = false)
    (hsequence : InSequence c.expectedSequence entry.records)
    (hexpected : c'.expectedSequence = expectedAfter c.expectedSequence entry.records) :
    Unbroken entries c' := by
  obtain ⟨expected, hold, hlast⟩ := h.inSequence
  have hsince := deliveredSince_append h.length htrace
  refine ⟨hactive, hfaulted, ?_, ?_, expected, ?_, ?_⟩
  · rw [htrace, List.length_append]
    exact Nat.le_add_right_of_le h.length
  · intro entry' hmem
    rw [htrace, List.drop_append_of_le_length h.length] at hmem
    rcases List.mem_append.1 hmem with hmem | hmem
    · exact h.quiet entry' hmem
    · rwa [List.mem_singleton.1 hmem]
  · rw [hsince, inSequence_append, ← hlast]
    exact ⟨hold, hsequence⟩
  · rw [hsince, hexpected, hlast, expectedAfter, expectedAfter, expectedAfter,
      List.foldl_append]

/-! ## Events -/

/-- An event that does not activate leaves the stream alone, or it faults. -/
theorem handle_quiet_or_faulted {event : QueueEvent} (h : event.activates = false) :
    (∃ manager seat, c.handle event = { c with manager := manager, seat := seat }) ∨
      (c.handle event).faulted = true := by
  cases event with
  | global name bound =>
    cases name with
    | manager =>
      dsimp only [GameClient.handle, GameClient.registryGlobal]
      split
      · exact .inl ⟨bound, c.seat, rfl⟩
      · exact .inl ⟨c.manager, c.seat, rfl⟩
    | seat =>
      dsimp only [GameClient.handle, GameClient.registryGlobal]
      split
      · exact .inl ⟨c.manager, bound, rfl⟩
      · exact .inl ⟨c.manager, c.seat, rfl⟩
    | other => exact .inl ⟨c.manager, c.seat, rfl⟩
  | globalRemove => exact .inl ⟨c.manager, c.seat, rfl⟩
  | active a =>
    simp only [QueueEvent.activates, Activation.valid, Bool.and_eq_false_iff] at h
    simp only [GameClient.handle, GameClient.streamActive]
    split
    · exact .inr rfl
    rename_i hbounds
    rw [Bool.not_eq_true', Bool.not_eq_false] at hbounds
    split
    · exact .inr rfl
    rename_i header hmapped
    have hinvalid : a.headerValid header = false := by
      simpa [hmapped, hbounds] using h
    rw [hinvalid]
    exact .inr rfl
  | notify reason _ _ =>
    dsimp only [GameClient.handle, GameClient.streamNotify]
    split
    · exact .inr rfl
    split
    · exact .inr rfl
    · exact .inl ⟨c.manager, c.seat, rfl⟩
  | denied reason => exact .inr rfl
  | revoked _ _ _ _ _ => exact .inr rfl

/-- Without an activation a fault stays. -/
theorem handleAll_quiet_or_faulted {events : List QueueEvent}
    (h : ∀ event ∈ events, event.activates = false) :
    (∃ manager seat, c.handleAll events = { c with manager := manager, seat := seat }) ∨
      (c.handleAll events).faulted = true := by
  have hstays : ∀ (events : List QueueEvent) (c : GameClient),
      (∀ event ∈ events, event.activates = false) → c.faulted = true →
      (c.handleAll events).faulted = true := by
    intro events
    induction events with
    | nil => exact fun c _ hfaulted => hfaulted
    | cons event events ih =>
      intro c h hfaulted
      rw [GameClient.handleAll, List.foldl_cons]
      refine ih _ (fun e he => h e (List.mem_cons_of_mem _ he)) ?_
      rcases handle_quiet_or_faulted (c := c) (h event List.mem_cons_self) with
        ⟨manager, seat, hquiet⟩ | hfault
      · rw [hquiet]
        exact hfaulted
      · exact hfault
  induction events generalizing c with
  | nil => exact .inl ⟨c.manager, c.seat, rfl⟩
  | cons event events ih =>
    have hrest := fun e he => h e (List.mem_cons_of_mem _ he)
    rw [GameClient.handleAll, List.foldl_cons, ← GameClient.handleAll]
    rcases handle_quiet_or_faulted (c := c) (h event List.mem_cons_self) with
      ⟨manager, seat, hquiet⟩ | hfault
    · rw [hquiet]
      exact ih hrest
    · exact .inr (hstays events _ hrest hfault)

/-! ## Calls -/

/-- A read that returns true is one entry. -/
theorem Unbroken.read (h : Unbroken entries c) {env : ReadEnv} {records : List Record}
    (hevents : ∀ event ∈ c.dispatched env, event.activates = false)
    (hread : ReadOk (c.handleAll (c.dispatched env)) env (c.read env) records) :
    Unbroken entries (c.read env).client ∧
      (c.read env).client.deliveredSince entries = c.deliveredSince entries ++ records := by
  rcases handleAll_quiet_or_faulted (c := c) hevents with ⟨manager, seat, hquiet⟩ | hfault
  · rw [hquiet] at hread
    have htrace : (c.read env).client.trace = c.trace ++ [.delivered c.localTail records] := by
      rw [hread.client]
      rfl
    refine ⟨h.append _ htrace ⟨id, id⟩ ?_ ?_ hread.inSequence ?_,
      deliveredSince_append h.length htrace⟩
    · rw [hread.client]
      exact h.active
    · rw [hread.client]
      exact h.faulted
    · rw [hread.client]
      rfl
  · rw [hread.faulted] at hfault
    cases hfault

/-- An entry of the acknowledgement, which delivers nothing. -/
theorem Unbroken.log (h : Unbroken entries c) (entry : GameEntry)
    (hentry : ¬ entry.Faults ∧ ¬ entry.Activates) (hrecords : entry.records = []) :
    Unbroken entries (c.log entry) ∧
      (c.log entry).deliveredSince entries = c.deliveredSince entries := by
  have hsince := deliveredSince_append h.length (show (c.log entry).trace = c.trace ++ [entry] from rfl)
  rw [hrecords, List.append_nil] at hsince
  refine ⟨h.append entry rfl hentry h.active h.faulted ?_ ?_, hsince⟩
  · rw [hrecords]
    trivial
  · rw [hrecords]
    rfl

theorem Unbroken.acknowledge (h : Unbroken entries c) {flush : IoResult}
    (hok : (c.acknowledge flush).1 = true) :
    Unbroken entries (c.acknowledge flush).2 ∧
      (c.acknowledge flush).2.deliveredSince entries = c.deliveredSince entries := by
  unfold GameClient.acknowledge at hok ⊢
  split
  · exact ⟨h, rfl⟩
  rename_i hready
  rw [if_neg hready] at hok
  split
  · exact h.log _ ⟨id, id⟩ rfl
  rename_i hbehind
  rw [if_neg hbehind] at hok
  obtain ⟨hsent, hsince⟩ := h.log (.ackSent c.ackRequest) ⟨id, id⟩ rfl
  have hmoved : Unbroken entries
      { c.log (.ackSent c.ackRequest) with acknowledgedTail := c.localTail } :=
    ⟨hsent.active, hsent.faulted, hsent.length, hsent.quiet, hsent.inSequence⟩
  obtain ⟨hacknowledged, hlast⟩ := hmoved.log .acknowledged ⟨id, id⟩ rfl
  cases flush with
  | done => exact ⟨hacknowledged, hlast.trans hsince⟩
  | failed errno =>
    cases errno with
    | EAGAIN => exact ⟨hacknowledged, hlast.trans hsince⟩
    | _ => cases hok

end

/-! ## The session -/

/-- A measurement is on, and nothing has failed. -/
def Session.Measuring (s : Session) : Prop :=
  s.measurementStarted = true ∧ s.integrityValid = true

/-- The motions since the measurement started. -/
def Session.measuredMotions (s : Session) : List Motion :=
  (s.client.deliveredSince s.measurementEntries).map Record.motion

/-- While a measurement is on, its stream is unbroken. -/
def Session.Intact (s : Session) : Prop :=
  s.Measuring → Unbroken s.measurementEntries s.client

/-- A part of a frame that brings these motions, in a measurement or not. -/
structure Carries (s s' : Session) (motions : List Motion) : Prop where
  started : s'.measurementStarted = s.measurementStarted
  valid : s'.integrityValid = true → s.integrityValid = true
  intact : s.Intact → s'.Intact
  measured : s.Intact → s'.Measuring → s'.measuredMotions = s.measuredMotions ++ motions

namespace Carries

variable {s s' s'' : Session} {motions motions' : List Motion}

theorem measuring (h : Carries s s' motions) (hmeasuring : s'.Measuring) : s.Measuring :=
  ⟨h.started ▸ hmeasuring.1, h.valid hmeasuring.2⟩

theorem trans (h : Carries s s' motions) (h' : Carries s' s'' motions') :
    Carries s s'' (motions ++ motions') where
  started := h'.started.trans h.started
  valid := fun hvalid => h.valid (h'.valid hvalid)
  intact := fun hintact => h'.intact (h.intact hintact)
  measured := by
    intro hintact hmeasuring
    rw [h'.measured (h.intact hintact) hmeasuring,
      h.measured hintact (h'.measuring hmeasuring), List.append_assoc]

/-- A part of a frame that leaves the client alone. -/
theorem of_client_eq (hclient : s'.client = s.client)
    (hstarted : s'.measurementStarted = s.measurementStarted)
    (hentries : s'.measurementEntries = s.measurementEntries)
    (hvalid : s'.integrityValid = true → s.integrityValid = true) : Carries s s' [] where
  started := hstarted
  valid := hvalid
  intact := by
    intro hintact hmeasuring
    rw [hclient, hentries]
    exact hintact ⟨hstarted ▸ hmeasuring.1, hvalid hmeasuring.2⟩
  measured := by
    intro _ _
    rw [Session.measuredMotions, hclient, hentries, List.append_nil]
    rfl

/-- A failure ends the measurement. -/
theorem of_failed (hstarted : s'.measurementStarted = s.measurementStarted)
    (hvalid : s'.integrityValid = false) : Carries s s' motions where
  started := hstarted
  valid := by simp [hvalid]
  intact := fun _ hmeasuring => by simp [Session.Measuring, hvalid] at hmeasuring
  measured := fun _ hmeasuring => by simp [Session.Measuring, hvalid] at hmeasuring

/-- A call of the client that succeeds. -/
theorem of_call {c : GameClient} {records : List Record}
    (hcall : Unbroken s.measurementEntries s.client →
      Unbroken s.measurementEntries c ∧
      c.deliveredSince s.measurementEntries =
        s.client.deliveredSince s.measurementEntries ++ records) :
    Carries s { s with client := c } (records.map Record.motion) where
  started := rfl
  valid := id
  intact := fun hintact hmeasuring => (hcall (hintact hmeasuring)).1
  measured := by
    intro hintact hmeasuring
    simp only [Session.measuredMotions, (hcall (hintact hmeasuring)).2, List.map_append]

end Carries

section
variable {α : Type*} (s : Session) (env : FrameEnvironment α)

theorem pollEvent_carries (event : WindowEvent) : Carries s (s.pollEvent event) [] := by
  cases event with
  | focusLost =>
    dsimp only [Session.pollEvent]
    split
    · exact .of_failed rfl rfl
    · exact .of_client_eq rfl rfl rfl id
  | keyDown repeated isQ =>
    dsimp only [Session.pollEvent]
    split <;> exact .of_client_eq rfl rfl rfl id
  | mouseButtonDown captured =>
    dsimp only [Session.pollEvent]
    split <;> exact .of_client_eq rfl rfl rfl id
  | quit | focusGained | mouseMotion | other => exact .of_client_eq rfl rfl rfl id

theorem pollEvents_carries (events : List WindowEvent) :
    Carries s (s.pollEvents events) [] := by
  induction events generalizing s with
  | nil => exact .of_client_eq rfl rfl rfl id
  | cons event events ih => exact (pollEvent_carries s event).trans (ih _)

/-- A client in a measurement is active, so it is not connected again. -/
theorem connect_carries (frameStartNs : UInt64) (env : ConnectEnv) :
    Carries s (s.connect frameStartNs env) [] := by
  unfold Session.connect
  split
  · rename_i hdue
    have hidle : s.client.isActive = false := by
      simp only [Session.connectDue, Bool.and_eq_true, Bool.not_eq_true'] at hdue
      exact hdue.1.2
    have hnever : s.Intact → ¬ s.Measuring := by
      intro hintact hmeasuring
      rw [(hintact hmeasuring).isActive] at hidle
      cases hidle
    exact ⟨rfl, id, fun hintact hmeasuring => absurd hmeasuring (hnever hintact),
      fun hintact hmeasuring => absurd hmeasuring (hnever hintact)⟩
  · exact .of_client_eq rfl rfl rfl id

theorem noteReady_carries (frameStartNs : UInt64) :
    Carries s (s.noteReady frameStartNs) [] := by
  unfold Session.noteReady
  split
  · split <;> exact .of_client_eq rfl rfl rfl id
  · exact .of_client_eq rfl rfl rfl id

theorem isActive_of_readySince (frameStartNs : UInt64)
    (h : (s.noteReady frameStartNs).readySinceNs ≠ 0) :
    (s.noteReady frameStartNs).client.isActive = true := by
  unfold Session.noteReady at h ⊢
  split
  · rename_i hready
    have hactive : s.client.isActive = true := by
      simp only [Session.ready, Bool.and_eq_true] at hready
      exact hready.2
    split <;> exact hactive
  · rename_i hidle
    rw [if_neg hidle] at h
    exact absurd rfl h

/-- The measurement starts with an active client, and with nothing measured. -/
structure Begins (s s' : Session) (motions : List Motion) : Prop where
  before : s.measurementStarted = false
  started : s'.measurementStarted = true
  intact : s'.Intact
  measured : s'.Measuring → s'.measuredMotions = motions

theorem startMeasurement_cases (o : BenchmarkOptions) (frameStartNs : UInt64)
    (hready : s.readySinceNs ≠ 0 → s.client.isActive = true) :
    Carries s (s.startMeasurement o frameStartNs) [] ∨
      Begins s (s.startMeasurement o frameStartNs) [] := by
  unfold Session.startMeasurement
  split
  · rename_i hstart
    simp only [Bool.and_eq_true, Bool.not_eq_true', bne_iff_ne] at hstart
    refine .inr ⟨hstart.1.1, rfl, fun _ => unbroken_start (hready hstart.1.2), fun _ => ?_⟩
    simp [Session.measuredMotions, GameClient.deliveredSince, deliveredRecords]
  · exact .inl (.of_client_eq rfl rfl rfl id)

variable {s s' s'' : Session} {motions motions' : List Motion}

theorem Begins.trans (h : Begins s s' motions) (h' : Carries s' s'' motions') :
    Begins s s'' (motions ++ motions') where
  before := h.before
  started := h'.started.trans h.started
  intact := h'.intact h.intact
  measured := by
    intro hmeasuring
    rw [h'.measured h.intact hmeasuring, h.measured (h'.measuring hmeasuring)]

/-- A frame carries the measurement on, or it begins one. -/
def Advances (s s' : Session) (motions : List Motion) : Prop :=
  Carries s s' motions ∨ Begins s s' motions

theorem Advances.trans (h : Advances s s' motions) (h' : Carries s' s'' motions') :
    Advances s s'' (motions ++ motions') := by
  rcases h with hcarries | hbegins
  · exact .inl (hcarries.trans h')
  · exact .inr (hbegins.trans h')

theorem prepare_advances (s : Session) (env : FrameEnvironment α) (o : BenchmarkOptions) :
    Advances s (s.prepare env o) [] := by
  have hconnect := connect_carries s env.frameStartNs env.connect
  have hnote := noteReady_carries (s.connect env.frameStartNs env.connect) env.frameStartNs
  have hfront := hconnect.trans hnote
  rcases startMeasurement_cases _ o env.frameStartNs
    (isActive_of_readySince (s.connect env.frameStartNs env.connect) env.frameStartNs) with
    hcarries | hbegins
  · exact .inl (hfront.trans hcarries)
  · refine .inr ⟨?_, hbegins.started, hbegins.intact, hbegins.measured⟩
    rw [← hfront.started]
    exact hbegins.before

/-! ## The reads -/

theorem mem_dispatched {c : GameClient} {env : ReadEnv} {event : QueueEvent}
    (h : event ∈ c.dispatched env) : ∃ dispatch ∈ env.dispatch, event ∈ dispatch.events := by
  unfold GameClient.dispatched at h
  split at h
  · cases hdispatch : env.dispatch with
    | none => simp [hdispatch] at h
    | some dispatch => exact ⟨dispatch, rfl, by simpa [hdispatch] using h⟩
  · cases h

/-- The compositor activates the stream in no early dispatch. -/
def FrameEnvironment.SingleActivation (env : FrameEnvironment α) : Prop :=
  ∀ event ∈ env.earlyDispatch.events, event.activates = false

theorem readEarly_carries {env : FrameEnvironment α} (henv : env.SingleActivation)
    (s : Session) :
    Carries s (s.readEarly env).2.2 (s.readEarly env).2.1.motions := by
  unfold Session.readEarly
  split
  · exact .of_client_eq rfl rfl rfl id
  dsimp only
  split
  · rename_i hok
    obtain ⟨records, hread⟩ := read_ok hok
    have hevents : ∀ event ∈ s.client.dispatched env.earlyRead, event.activates = false := by
      intro event hevent
      obtain ⟨dispatch, hdispatch, hmem⟩ := mem_dispatched hevent
      obtain rfl := Option.some.inj hdispatch
      exact henv event hmem
    have hmotions : (FrameInput.ofEarly (s.client.read env.earlyRead)).motions =
        records.map Record.motion := by
      simp [FrameInput.motions, FrameInput.ofEarly, hread.seen rfl]
    rw [hmotions]
    exact .of_call fun hunbroken => hunbroken.read hevents hread
  split
  · exact .of_failed rfl rfl
  · rename_i hfail hstarted
    -- Before the measurement the failure is none of the benchmark.
    have hnever : ∀ c : GameClient, ¬ Session.Measuring { s with client := c } :=
      fun _ hmeasuring => hstarted hmeasuring.1
    exact ⟨rfl, id, fun _ hmeasuring => absurd hmeasuring (hnever _),
      fun _ hmeasuring => absurd hmeasuring (hnever _)⟩

theorem readLate_carries (s : Session) (env : FrameEnvironment α) {input : FrameInput}
    (hlate : input.late = []) :
    ∃ motions, (s.readLate env input).2.1.motions = input.motions ++ motions ∧
      Carries s (s.readLate env input).2.2 motions := by
  unfold Session.readLate
  split
  · exact ⟨[], (List.append_nil _).symm, .of_client_eq rfl rfl rfl id⟩
  dsimp only
  split
  · rename_i hok
    obtain ⟨records, hread⟩ := read_ok hok
    refine ⟨records.map Record.motion, ?_, .of_call fun hunbroken => ?_⟩
    · simp [FrameInput.motions, FrameInput.addLate, hlate, hread.seen rfl]
    · refine hunbroken.read ?_ hread
      intro event hevent
      obtain ⟨dispatch, hdispatch, -⟩ := mem_dispatched hevent
      cases hdispatch
  · exact ⟨[], (List.append_nil _).symm, .of_failed rfl rfl⟩

theorem present_carries (s : Session) (env : FrameEnvironment α) :
    Carries s (s.present env).2 [] := by
  unfold Session.present
  split
  · exact .of_failed rfl rfl
  split
  · exact .of_client_eq rfl rfl rfl id
  dsimp only
  split
  · exact .of_failed rfl rfl
  · rename_i hok
    rw [Bool.not_eq_true', Bool.not_eq_false] at hok
    refine @Carries.of_call s _ [] fun hunbroken => ?_
    rw [List.append_nil]
    exact hunbroken.acknowledge hok

/-- The reads of a frame bring what it measures. -/
theorem takeInput_advances {env : FrameEnvironment α} (henv : env.SingleActivation)
    (s : Session) (o : BenchmarkOptions) :
    Advances s (s.takeInput env o).2.2 (s.takeInput env o).2.1.motions := by
  have hevents := pollEvents_carries s env.events
  unfold Session.takeInput
  dsimp only
  split
  · exact .inl hevents
  have hprepare : Advances s ((s.pollEvents env.events).prepare env o) [] := by
    rcases prepare_advances (s.pollEvents env.events) env o with hcarries | hbegins
    · exact .inl (hevents.trans hcarries)
    · refine .inr ⟨?_, hbegins.started, hbegins.intact, hbegins.measured⟩
      rw [← hevents.started]
      exact hbegins.before
  generalize (s.pollEvents env.events).prepare env o = s' at hprepare ⊢
  have hearly := hprepare.trans (readEarly_carries henv s')
  rw [List.nil_append] at hearly
  split
  · exact hearly
  split
  · exact hearly
  obtain ⟨motions, hmotions, hcarries⟩ := readLate_carries (s'.readEarly env).2.2 env
    (readEarly_brings s' env).2
  dsimp only
  rw [hmotions]
  exact hearly.trans hcarries

end

/-! ## The counts of a frame -/

/-- The counts that a frame may put into its sample. -/
structure FrameInput.Counts (input : FrameInput) : Prop where
  records : input.inputRecords.toNat = input.motions.length
  producerDrops : input.producerDrops = 0

theorem FrameInput.counts_empty : FrameInput.empty.Counts := ⟨rfl, rfl⟩

section
variable {α : Type*}

theorem readEarly_counts (s : Session) (env : FrameEnvironment α) :
    (s.readEarly env).2.1.Counts ∧ (s.readEarly env).2.1.motions.length ≤ 4096 := by
  unfold Session.readEarly
  split
  · exact ⟨FrameInput.counts_empty, Nat.zero_le _⟩
  dsimp only
  split
  · rename_i hok
    obtain ⟨records, hread⟩ := read_ok hok
    have hfits := UInt64.le_iff_toNat_le.1 (read_fits rfl hok)
    rw [← hread.count] at hfits
    have hmotions : (FrameInput.ofEarly (s.client.read env.earlyRead)).motions =
        records.map Record.motion := by
      simp [FrameInput.motions, FrameInput.ofEarly, hread.seen rfl]
    refine ⟨⟨?_, hread.producerDrops⟩, ?_⟩
    · rw [hmotions, List.length_map]
      exact hread.count.symm
    · rw [hmotions, List.length_map]
      exact hfits
  split
  · exact ⟨FrameInput.counts_empty, Nat.zero_le _⟩
  · exact ⟨FrameInput.counts_empty, Nat.zero_le _⟩

/-- Two buffers cannot wrap a counter. -/
theorem readLate_counts (s : Session) (env : FrameEnvironment α) {input : FrameInput}
    (h : input.Counts) (hsmall : input.motions.length ≤ 4096) (hlate : input.late = []) :
    (s.readLate env input).2.1.Counts := by
  unfold Session.readLate
  split
  · exact h
  dsimp only
  split
  · rename_i hok
    obtain ⟨records, hread⟩ := read_ok hok
    have hfits := UInt64.le_iff_toNat_le.1 (read_fits rfl hok)
    rw [← hread.count] at hfits
    have hroom : records.length ≤ 4096 := hfits
    have hmotions : (input.addLate (s.client.read env.lateRead)).motions =
        input.motions ++ records.map Record.motion := by
      simp [FrameInput.motions, FrameInput.addLate, hread.seen rfl, hlate]
    constructor
    case records =>
      rw [hmotions, List.length_append, List.length_map]
      show (input.inputRecords + (s.client.read env.lateRead).batch.records).toNat = _
      rw [UInt64.toNat_add, h.records, ← hread.count]
      exact Nat.mod_eq_of_lt (by omega)
    case producerDrops =>
      show max input.producerDrops (s.client.read env.lateRead).batch.producerDrops = 0
      rw [h.producerDrops, hread.producerDrops]
      rfl
  · exact h

theorem takeInput_counts (s : Session) (env : FrameEnvironment α) (o : BenchmarkOptions) :
    (s.takeInput env o).2.1.Counts := by
  unfold Session.takeInput
  dsimp only
  split
  · exact FrameInput.counts_empty
  obtain ⟨hcounts, hsmall⟩ := readEarly_counts ((s.pollEvents env.events).prepare env o) env
  split
  · exact hcounts
  split
  · exact hcounts
  · exact readLate_counts _ env hcounts hsmall (readEarly_brings _ env).2

/-! ## The ledger of the measurement -/

/-- The frame has left a sample. -/
def FrameLog.sampled (f : FrameLog α) : Bool := f.measured && f.stage = .shown

/-- What the frames and the samples say of the measurement. -/
structure Certified (b : Benchmark α) : Prop where
  waiting : b.session.measurementStarted = false → ∀ f ∈ b.frames, f.measured = false
  intact : b.session.Intact
  measured : b.session.Measuring → b.session.measuredMotions =
    (b.frames.filter (·.measured)).flatMap fun f => f.input.motions
  samples : b.samples.map (·.inputRecords.toNat) =
    (b.frames.filter (·.sampled)).map fun f => f.input.motions.length
  drops : ∀ sample ∈ b.samples, sample.producerDrops = 0

theorem certified_start (captured : Bool) (camera : α) :
    Certified (Benchmark.start captured camera) where
  waiting := fun _ f hf => by cases hf
  intact := fun hmeasuring => by cases hmeasuring.1
  measured := fun hmeasuring => by cases hmeasuring.1
  samples := rfl
  drops := fun _ hsample => by cases hsample

/-- One more frame, with the session that it leaves. -/
theorem Certified.append {b b' : Benchmark α} (h : Certified b) {entry : FrameLog α}
    (hframes : b'.frames = b.frames ++ [entry])
    (hmeasured : entry.measured = b'.session.measurementStarted)
    (hadvances : Advances b.session b'.session entry.input.motions)
    (hsamples : b'.samples.map (·.inputRecords.toNat) = b.samples.map (·.inputRecords.toNat) ++
      if entry.sampled then [entry.input.motions.length] else [])
    (hdrops : ∀ sample ∈ b'.samples, sample ∈ b.samples ∨ sample.producerDrops = 0) :
    Certified b' := by
  constructor
  case waiting =>
    intro hstarted f hf
    have hbefore : b.session.measurementStarted = false := by
      rcases hadvances with hcarries | hbegins
      · rw [← hcarries.started]
        exact hstarted
      · exact hbegins.before
    rw [hframes] at hf
    rcases List.mem_append.1 hf with hf | hf
    · exact h.waiting hbefore f hf
    · rw [List.mem_singleton.1 hf, hmeasured]
      exact hstarted
  case intact =>
    rcases hadvances with hcarries | hbegins
    · exact hcarries.intact h.intact
    · exact hbegins.intact
  case measured =>
    intro hmeasuring
    have hentry : entry.measured = true := by
      rw [hmeasured]
      exact hmeasuring.1
    rw [hframes, List.filter_append, List.flatMap_append]
    have hlast : ([entry].filter (·.measured)).flatMap (fun f => f.input.motions) =
        entry.input.motions := by simp [hentry]
    rw [hlast]
    rcases hadvances with hcarries | hbegins
    · rw [hcarries.measured h.intact hmeasuring, h.measured (hcarries.measuring hmeasuring)]
    · -- No frame in front of the first measured one has been measured.
      have hnone : b.frames.filter (·.measured) = [] := by
        rw [List.filter_eq_nil_iff]
        intro f hf
        simp [h.waiting hbegins.before f hf]
      rw [hbegins.measured hmeasuring, hnone]
      rfl
  case samples =>
    rw [hsamples, h.samples, hframes, List.filter_append, List.map_append]
    cases hsampled : entry.sampled with
    | true => simp [hsampled]
    | false => simp [hsampled]
  case drops =>
    intro sample hsample
    rcases hdrops sample hsample with hold | hnew
    · exact h.drops sample hold
    · exact hnew

variable {applyMotion : α → Motion → α} {o : BenchmarkOptions}

theorem Certified.skip {b : Benchmark α} (h : Certified b) {stage : FrameStage}
    (hdrawn : stage.drawn = false) {input : FrameInput} {session : Session}
    (hadvances : Advances b.session session input.motions) :
    Certified (b.skip applyMotion o stage input session) := by
  refine h.append rfl rfl hadvances ?_ fun sample hsample => .inl hsample
  have hsampled : FrameLog.sampled (⟨stage, session.measurementStarted, input, []⟩ :
      FrameLog α) = false := by
    have hstage : stage ≠ .shown := by
      rintro rfl
      cases hdrawn
    simp [FrameLog.sampled, hstage]
  rw [hsampled]
  exact (List.append_nil _).symm

theorem Certified.draw {b : Benchmark α} (h : Certified b) (env : FrameEnvironment α)
    {input : FrameInput} {session : Session} (hcounts : input.Counts)
    (hadvances : Advances b.session session input.motions) :
    Certified (b.draw applyMotion o env input session) := by
  have hpresent := hadvances.trans (present_carries session env)
  rw [List.append_nil] at hpresent
  unfold Benchmark.draw
  dsimp only
  generalize session.present env = presented at hpresent ⊢
  obtain ⟨stage, session'⟩ := presented
  dsimp only at hpresent ⊢
  unfold Benchmark.addSample
  dsimp only
  split
  · rename_i hshown
    subst hshown
    split
    · rename_i hstarted
      have hrunning : Carries session' { session' with
          running := !o.reachesSeconds (env.frameEndNs - session'.measurementStartNs) } [] :=
        .of_client_eq rfl rfl rfl id
      have hstop := hpresent.trans hrunning
      rw [List.append_nil] at hstop
      refine h.append rfl rfl hstop ?_ ?_
      · simp [FrameLog.sampled, hstarted, hcounts.records]
      · intro sample hsample
        rcases List.mem_append.1 hsample with hold | hnew
        · exact .inl hold
        · rw [List.mem_singleton.1 hnew]
          exact .inr hcounts.producerDrops
    · rename_i hwaiting
      refine h.append rfl rfl hpresent ?_ fun sample hsample => .inl hsample
      simp [FrameLog.sampled, hwaiting]
  · rename_i hshown
    refine h.append rfl rfl hpresent ?_ fun sample hsample => .inl hsample
    simp [FrameLog.sampled, hshown]

theorem Certified.frame {b : Benchmark α} (h : Certified b) {env : FrameEnvironment α}
    (henv : env.SingleActivation) : Certified (b.frame applyMotion o env) := by
  have hadvances := takeInput_advances henv b.session o
  have hcounts := takeInput_counts b.session env o
  obtain ⟨-, hended⟩ := takeInput_brings b.session env o
  unfold Benchmark.frame
  generalize b.session.takeInput env o = taken at hadvances hcounts hended ⊢
  obtain ⟨ended, input, session⟩ := taken
  cases ended with
  | some stage => exact h.skip (hended stage rfl).1 hadvances
  | none => exact h.draw env hcounts hadvances

theorem certified_run {captured : Bool} {camera : α} {envs : List (FrameEnvironment α)}
    {b : Benchmark α} (henvs : ∀ env ∈ envs, env.SingleActivation)
    (hrun : (benchmarkLoop applyMotion o).run (.start captured camera) envs = some b) :
    Certified b := by
  suffices hall : ∀ start, Certified start →
      (benchmarkLoop applyMotion o).run start envs = some b → Certified b from
    hall _ (certified_start captured camera) hrun
  clear hrun
  induction envs with
  | nil =>
    rintro start hstart ⟨⟩
    exact hstart
  | cons env envs ih =>
    intro start hstart hrun
    obtain ⟨next, hstep, hrest⟩ := Machine.run_cons.1 hrun
    simp only [benchmarkLoop] at hstep
    split at hstep
    · obtain rfl := Option.some.inj hstep
      exact ih (fun env henv => henvs env (List.mem_cons_of_mem _ henv)) _
        (hstart.frame (henvs env List.mem_cons_self)) hrest
    · cases hstep

/-! ## A valid result -/

/-- The sum of the samples does not count more than them. -/
theorem records_le (b : Benchmark α) :
    b.records.toNat ≤ (b.samples.map (·.inputRecords.toNat)).sum := by
  have hfold : ∀ (samples : List FrameSample) (n : UInt64),
      (samples.foldl (fun n sample => n + sample.inputRecords) n).toNat ≤
        n.toNat + (samples.map (·.inputRecords.toNat)).sum := by
    intro samples
    induction samples with
    | nil => exact fun n => Nat.le_refl _
    | cons sample samples ih =>
      intro n
      have hrest := ih (n + sample.inputRecords)
      have hadd : (n + sample.inputRecords).toNat ≤ n.toNat + sample.inputRecords.toNat := by
        rw [UInt64.toNat_add]
        exact Nat.mod_le _ _
      rw [List.foldl_cons, List.map_cons, List.sum_cons]
      omega
  have hsum := hfold b.samples 0
  rwa [show (0 : UInt64).toNat = 0 from rfl, Nat.zero_add] at hsum

/-- The motions of the measured frames, with and without a sample. -/
theorem measured_length (frames : List (FrameLog α)) :
    ((frames.filter (·.measured)).flatMap fun f => f.input.motions).length =
      ((frames.filter (·.sampled)).map fun f => f.input.motions.length).sum +
      ((frames.filter fun f => f.measured && !f.sampled).map
        fun f => f.input.motions.length).sum := by
  induction frames with
  | nil => rfl
  | cons f frames ih =>
    cases hmeasured : f.measured with
    | false => simpa [hmeasured, FrameLog.sampled] using ih
    | true =>
      cases hsampled : f.sampled with
      | true =>
        simp only [List.filter_cons, hmeasured, hsampled, if_true, List.flatMap_cons,
          List.length_append, ih, List.map_cons, List.sum_cons, Bool.not_true, Bool.and_false]
        simp only [Bool.false_eq_true, if_false]
        omega
      | false =>
        simp only [List.filter_cons, hmeasured, hsampled, if_true, List.flatMap_cons,
          List.length_append, ih, List.map_cons, List.sum_cons, Bool.not_false, Bool.and_true]
        simp only [Bool.false_eq_true, if_false]
        omega

/-- In every run whose compositor activates a stream in `connect` only, a
valid result certifies: the client is active, and since the measurement
started nothing has faulted or been activated again; the records delivered
since then are in sequence, and are those of the measured frames; the samples
count all of them but those of measured frames without a sample, and no drop;
and at a requested rate from 5500 Hz on at least 5500 of them were delivered
for each second of the samples. -/
theorem valid_result {captured : Bool} {camera : α} {envs : List (FrameEnvironment α)}
    {b : Benchmark α} (henvs : ∀ env ∈ envs, env.SingleActivation)
    (hrun : (benchmarkLoop applyMotion o).run (.start captured camera) envs = some b)
    (hvalid : b.valid o = true) :
    Unbroken b.session.measurementEntries b.session.client ∧
    b.session.measuredMotions = (b.frames.filter (·.measured)).flatMap (·.input.motions) ∧
    (b.samples.map (·.inputRecords.toNat)).sum +
      ((b.frames.filter fun f => f.measured && !f.sampled).map (·.input.motions.length)).sum =
      (b.session.client.deliveredSince b.session.measurementEntries).length ∧
    (∀ sample ∈ b.samples, sample.producerDrops = 0) ∧
    (5500 ≤ o.requestedRateHz → 5500 * b.measuredSeconds ≤
      (b.session.client.deliveredSince b.session.measurementEntries).length) := by
  have h := certified_run henvs hrun
  simp only [Benchmark.valid, Bool.and_eq_true, Bool.not_eq_true', List.isEmpty_eq_false_iff]
    at hvalid
  obtain ⟨⟨hintegrity, hrate⟩, hsome⟩ := hvalid
  -- A sample is one of a measured frame.
  have hstarted : b.session.measurementStarted = true := by
    by_contra hwaiting
    rw [Bool.not_eq_true] at hwaiting
    have hnone : b.frames.filter (·.sampled) = [] := by
      rw [List.filter_eq_nil_iff]
      intro f hf
      simp [FrameLog.sampled, h.waiting hwaiting f hf]
    have hlength := congrArg List.length h.samples
    rw [hnone] at hlength
    exact hsome (List.eq_nil_of_length_eq_zero (by simpa using hlength))
  have hmeasuring : b.session.Measuring := ⟨hstarted, hintegrity⟩
  have hmeasured := h.measured hmeasuring
  have hcount : (b.samples.map (·.inputRecords.toNat)).sum +
      ((b.frames.filter fun f => f.measured && !f.sampled).map (·.input.motions.length)).sum =
      (b.session.client.deliveredSince b.session.measurementEntries).length := by
    rw [h.samples, ← measured_length, ← hmeasured, Session.measuredMotions, List.length_map]
  refine ⟨h.intact hmeasuring, hmeasured, hcount, h.drops, ?_⟩
  intro hhigh
  have hrecords : b.records.toNat ≤
      (b.session.client.deliveredSince b.session.measurementEntries).length := by
    have hle := records_le b
    omega
  have hpersecond : 5500 ≤ b.recordsPerSecond := by
    have hlow : ¬ o.requestedRateHz < 5500 := UInt32.not_lt.2 hhigh
    simpa [Benchmark.highRateValid, hlow] using hrate
  unfold Benchmark.recordsPerSecond at hpersecond
  split at hpersecond
  · rename_i hpos
    rw [le_div_iff₀ hpos] at hpersecond
    exact hpersecond.trans (by exact_mod_cast hrecords)
  · exact absurd hpersecond (not_le.2 Nat.ofNat_pos)

theorem valid_result_gameFrame :
    ∃ b, (benchmarkLoop recordMotion gameOptions).run (.start true []) [gameFrame] = some b ∧
      b.valid gameOptions = true ∧
      Unbroken b.session.measurementEntries b.session.client ∧
      (b.session.client.deliveredSince b.session.measurementEntries).length = 2 := by
  have hrun : (benchmarkLoop recordMotion gameOptions).run (.start true [])
      [gameFrame] = some _ := rfl
  have hvalid : (Benchmark.frame recordMotion gameOptions (.start true []) gameFrame).valid
      gameOptions = true := by decide +kernel
  have henvs : ∀ env ∈ [gameFrame], env.SingleActivation := by
    intro env henv event hevent
    rw [List.mem_singleton.1 henv] at hevent
    cases hevent
  exact ⟨_, hrun, hvalid, (valid_result henvs hrun hvalid).1, by decide⟩

end

end Hfior
