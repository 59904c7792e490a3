import Hfior.Input.Ledgers

/-!
# The schedule of the synthetic source

`arm_synthetic_source` starts a periodic timer, and `emit_synthetic` attempts
one record for each of its expirations, up to a million in a call.  In the
mode of scheduled timestamps each record has the time of its expiration.

`attemptFor` says which attempt belongs to an expiration, if one does.
`OnSchedule` is the invariant: the attempts so far have the times of the
schedule, one after the other, and the next time is stored.  `emitOne` keeps
it, and with it all calls of the main loop.
-/

namespace Hfior

/-! ## Arming -/

/-- The tests of the option parser on `--synthetic-rate`. -/
def rateAdmitted (rateHz : UInt32) : Bool := rateHz != 0 && rateHz ≤ 1000000

/-- A rate that the option parser admits. -/
structure SyntheticRate where
  hz : UInt32
  admitted : rateAdmitted hz = true

/-- `arm_synthetic_source`.  `nowNs` is its clock and `settime` the result of
`timerfd_settime`. -/
def armSyntheticSource (b : InputBridge) (rate : SyntheticRate) (nowNs : UInt64)
    (settime : IoResult) : Int32 × InputBridge :=
  let b := { b with
    synthetic.periodNs := 1000000000 / rate.hz.toUInt64
    synthetic.nextTimestampNs := nowNs + 2000000 }
  match settime with
  | .failed _ => (-1, b)
  | .done => (0, { b with sourceReady := true })

/-- The time of the first expiration. -/
def firstNs (armedNs : UInt64) : Nat := armedNs.toNat + 2000000

/-- The time between two expirations. -/
def SyntheticRate.periodNs (rate : SyntheticRate) : Nat := 1000000000 / rate.hz.toNat

/-! ## Expirations and attempts -/

/-- The most records of one call. -/
def burstCap : Nat := 1000000

/-- The expirations that a call is passed. -/
def MainCall.expirations : MainCall → Option Nat
  | .synthetic expirations _ _ => some expirations.toNat
  | _ => none

/-- The calls that the main loop makes for a synthetic source. -/
def MainCall.inLoop : MainCall → Bool
  | .synthetic .. | .control .. => true
  | _ => false

/-- The expirations of all calls, in order. -/
def burstsOf (calls : List MainCall) : List Nat := calls.filterMap MainCall.expirations

/-- The attempt for expiration `n`, both counted from 0.  A call attempts a
record for each of its first expirations. -/
def attemptFor : List Nat → Nat → Option Nat
  | [], _ => none
  | burst :: bursts, n =>
    if n < burst then if n < burstCap then some n else none
    else (attemptFor bursts (n - burst)).map (min burst burstCap + ·)

/-- The time of an attempted record. -/
def Attempt.timestamp (a : Attempt) : Nat := a.record.timestampNs.toNat

/-- Every expiration is counted, and its record has its time. -/
structure KeepsSchedule (first period : Nat) (bursts : List Nat)
    (attempts : List Attempt) : Prop where
  counted : attempts.length = bursts.sum
  onTime : ∀ n k a, attemptFor bursts n = some k → attempts[k]? = some a →
    a.timestamp = first + n * period

/-- Without a long burst every expiration has its attempt. -/
theorem attemptFor_of_short {bursts : List Nat} (h : ∀ burst ∈ bursts, burst ≤ burstCap)
    {n : Nat} (hn : n < bursts.sum) : attemptFor bursts n = some n := by
  induction bursts generalizing n with
  | nil => exact absurd hn (Nat.not_lt_zero n)
  | cons burst bursts ih =>
    have hburst := h burst List.mem_cons_self
    rw [attemptFor]
    split
    · rw [if_pos (by omega)]
    · rw [List.sum_cons] at hn
      rw [ih (fun b hb => h b (List.mem_cons_of_mem _ hb)) (by omega), Option.map_some,
        Nat.min_eq_left hburst]
      congr 1
      omega

/-! ## The invariant -/

/-- The attempts have the times of the schedule, in 64 bits, where a time of
zero is replaced by the clock, and the next time is stored. -/
structure OnSchedule (first period : Nat) (b : InputBridge) (attempts : List Attempt) :
    Prop where
  scheduled : b.synthetic.publishTimestamps = false
  period_eq : b.synthetic.periodNs.toNat = period
  next : b.synthetic.nextTimestampNs.toNat = (first + attempts.length * period) % 2 ^ 64
  times : ∀ k a, attempts[k]? = some a → (first + k * period) % 2 ^ 64 ≠ 0 →
    a.timestamp = (first + k * period) % 2 ^ 64

namespace OnSchedule

variable {first period : Nat} {b : InputBridge} {attempts : List Attempt}

theorem arm {rate : SyntheticRate} {nowNs : UInt64} {armed : InputBridge}
    (hmode : b.synthetic.publishTimestamps = false)
    (harm : armSyntheticSource b rate nowNs .done = (0, armed)) :
    OnSchedule (firstNs nowNs) rate.periodNs armed [] := by
  obtain rfl := (Prod.mk.inj harm).2.symm
  constructor
  case scheduled => exact hmode
  case period_eq =>
    show (1000000000 / rate.hz.toUInt64).toNat = _
    rw [UInt64.toNat_div, UInt32.toNat_toUInt64]
    rfl
  case next =>
    show (nowNs + 2000000).toNat = _
    rw [UInt64.toNat_add, List.length_nil, Nat.zero_mul, Nat.add_zero]
    rfl
  case times =>
    intro k a hk
    rw [List.getElem?_nil] at hk
    cases hk

/-- The time of the record of one round. -/
theorem emitOne_timestamp (h : OnSchedule first period b attempts) (nowNs : UInt64)
    (env : FrameEnv) (hne : (first + attempts.length * period) % 2 ^ 64 ≠ 0) :
    (Hfior.emitOne b nowNs env).1.attempt.timestamp =
      (first + attempts.length * period) % 2 ^ 64 := by
  have hnonzero : (b.synthetic.nextTimestampNs != 0) = true := by
    rw [bne_iff_ne, ne_eq, ← UInt64.toNat_inj, h.next, UInt64.toNat_zero]
    exact hne
  have htime : (if b.synthetic.publishTimestamps then nowNs
      else b.synthetic.nextTimestampNs) = b.synthetic.nextTimestampNs := by
    rw [h.scheduled]
    rfl
  show (if (if b.synthetic.publishTimestamps then nowNs
      else b.synthetic.nextTimestampNs) != 0
    then (if b.synthetic.publishTimestamps then nowNs else b.synthetic.nextTimestampNs)
    else env.nowNs).toNat = _
  rw [htime, if_pos hnonzero, h.next]

/-- One round attempts one record, at the next time. -/
theorem emitOne (h : OnSchedule first period b attempts) (nowNs : UInt64) (env : FrameEnv) :
    OnSchedule first period (emitOne b nowNs env).2
      (attempts ++ [(emitOne b nowNs env).1.attempt]) := by
  have hlength : (attempts ++ [(Hfior.emitOne b nowNs env).1.attempt]).length =
      attempts.length + 1 := List.length_append
  constructor
  case scheduled => exact h.scheduled
  case period_eq => exact h.period_eq
  case next =>
    show (b.synthetic.nextTimestampNs + b.synthetic.periodNs).toNat = _
    rw [UInt64.toNat_add, h.next, h.period_eq, hlength, Nat.mod_add_mod, Nat.succ_mul,
      Nat.add_assoc]
  case times =>
    intro k a hk hne
    rcases Nat.lt_trichotomy k attempts.length with hlt | heq | hgt
    · rw [List.getElem?_append_left hlt] at hk
      exact h.times k a hk hne
    · subst heq
      rw [List.getElem?_concat_length] at hk
      obtain rfl := Option.some.inj hk
      exact h.emitOne_timestamp nowNs env hne
    · rw [List.getElem?_eq_none (by omega)] at hk
      cases hk

theorem emitRounds (h : OnSchedule first period b attempts) (clock : Nat → UInt64)
    (env : Nat → FrameEnv) (n : Nat) :
    OnSchedule first period (emitRounds b clock env n).2
        (attempts ++ attemptsOf (emitRounds b clock env n).1) ∧
      (attemptsOf (emitRounds b clock env n).1).length = n := by
  induction n with
  | zero =>
    refine ⟨?_, rfl⟩
    show OnSchedule first period b (attempts ++ [])
    rw [List.append_nil]
    exact h
  | succ n ih =>
    obtain ⟨hbefore, hlength⟩ := ih
    have hone := hbefore.emitOne (clock n) (env n)
    simp only [Hfior.emitRounds, attemptsOf, List.map_append, List.map_singleton,
      ← List.append_assoc] at hone hlength ⊢
    refine ⟨hone, ?_⟩
    rw [List.length_append, hlength]
    rfl

/-- A call of the main loop keeps to the schedule, and attempts what it is
passed, up to a million. -/
theorem call (h : OnSchedule first period b attempts) {call : MainCall}
    (hloop : call.inLoop = true) :
    OnSchedule first period (b.call call).2 (attempts ++ attemptsOf (b.call call).1) ∧
      (attemptsOf (b.call call).1).length =
        (((burstsOf [call]).map (min · burstCap)).sum) := by
  cases call with
  | synthetic expirations clock env =>
    have hrounds := h.emitRounds clock env (min expirations 1000000).toNat
    have hburst : (min expirations 1000000).toNat = min expirations.toNat burstCap := by
      show (if expirations ≤ 1000000 then expirations else 1000000).toNat = _
      have hcap : (1000000 : UInt64).toNat = burstCap := rfl
      split
      · rename_i hle
        rw [UInt64.le_iff_toNat_le, hcap] at hle
        exact (Nat.min_eq_left hle).symm
      · rename_i hlarge
        rw [UInt64.le_iff_toNat_le, hcap] at hlarge
        rw [hcap]
        exact (Nat.min_eq_right (Nat.le_of_not_le hlarge)).symm
    refine ⟨hrounds.1, hrounds.2.trans ?_⟩
    rw [hburst]
    rfl
  | control received nowNs urgent =>
    refine ⟨?_, rfl⟩
    show OnSchedule first period _ (attempts ++ [])
    rw [List.append_nil]
    exact ⟨h.scheduled, h.period_eq, h.next, h.times⟩
  | barrier | discard | device | reconnect | terminal => cases hloop

theorem run {s t : Running} {calls : List MainCall}
    (h : OnSchedule first period s.bridge s.attempts)
    (hcalls : ∀ call ∈ calls, call.inLoop = true)
    (hrun : mainMachine.run s calls = some t) :
    OnSchedule first period t.bridge t.attempts ∧ t.attempts.length =
      s.attempts.length + ((burstsOf calls).map (min · burstCap)).sum := by
  induction calls generalizing s with
  | nil =>
    obtain rfl := Option.some.inj hrun
    exact ⟨h, rfl⟩
  | cons call calls ih =>
    obtain ⟨r, hstep, hrest⟩ := Machine.run_cons.1 hrun
    obtain ⟨-, rfl⟩ := mainMachine_step.1 hstep
    obtain ⟨hcall, hattempts⟩ := h.call (hcalls call List.mem_cons_self)
    obtain ⟨ht, hlength⟩ := ih hcall (fun c hc => hcalls c (List.mem_cons_of_mem _ hc)) hrest
    refine ⟨ht, ?_⟩
    have hbursts : burstsOf (call :: calls) = burstsOf [call] ++ burstsOf calls := by
      rw [burstsOf, ← List.singleton_append, List.filterMap_append]
      rfl
    rw [hlength, hbursts, List.map_append, List.sum_append, List.length_append, hattempts,
      Nat.add_assoc]

/-- In a schedule that fits into 64 bits no time is replaced. -/
theorem timestamp_eq (h : OnSchedule first period b attempts) (hpos : 0 < first) {k : Nat}
    {a : Attempt} (hk : attempts[k]? = some a) (hfits : first + k * period < 2 ^ 64) :
    a.timestamp = first + k * period := by
  have htime := h.times k a hk
  rw [Nat.mod_eq_of_lt hfits] at htime
  exact htime (by omega)

end OnSchedule

theorem map_min_burstCap {bursts : List Nat} (h : ∀ burst ∈ bursts, burst ≤ burstCap) :
    bursts.map (min · burstCap) = bursts := by
  refine (List.map_congr_left fun burst hburst => ?_).trans bursts.map_id
  exact Nat.min_eq_left (h burst hburst)

/-- At every rate, for any calls of the main loop behind the arming, each
call attempts a record for each of its expirations, up to a million, so with
no longer burst all of them are counted, and until the first longer burst the
record for an expiration has its time, as long as that fits into 64 bits. -/
theorem synthetic_schedule (rate : SyntheticRate) {b armed : InputBridge} {armedNs : UInt64}
    (hmode : b.synthetic.publishTimestamps = false)
    (harm : armSyntheticSource b rate armedNs .done = (0, armed)) {calls : List MainCall}
    (hcalls : ∀ call ∈ calls, call.inLoop = true) {s : Running}
    (hrun : mainMachine.run ⟨armed, []⟩ calls = some s) :
    s.attempts.length = ((burstsOf calls).map (min · burstCap)).sum ∧
      ((∀ burst ∈ burstsOf calls, burst ≤ burstCap) →
        s.attempts.length = (burstsOf calls).sum ∧
          ∀ n, n < (burstsOf calls).sum → attemptFor (burstsOf calls) n = some n) ∧
      ∀ n a, attemptFor (burstsOf calls) n = some n → s.attempts[n]? = some a →
        firstNs armedNs + n * rate.periodNs < 2 ^ 64 →
          a.timestamp = firstNs armedNs + n * rate.periodNs := by
  obtain ⟨h, hlength⟩ := (OnSchedule.arm hmode harm).run hcalls hrun
  rw [List.length_nil, Nat.zero_add] at hlength
  refine ⟨hlength, ?_, ?_⟩
  · intro hshort
    rw [map_min_burstCap hshort] at hlength
    exact ⟨hlength, fun n hn => attemptFor_of_short hshort hn⟩
  · intro n a _ hn hfits
    exact h.timestamp_eq (Nat.succ_pos _) hn hfits

/-! ## Runs on a fresh bridge -/

/-- A bridge with a synthetic source in the mode of scheduled timestamps, on
a fresh ring. -/
def freshSynthetic : InputBridge :=
  .boot (.boot ⟨false, false⟩ (freshHeader 64 0 ⟨[], 0, 0, 0, 0⟩ 1 0) 5 (-1))
    ⟨0, false, 0, 0, 0⟩

/-- The bridge behind an arming that succeeds. -/
def armedSynthetic (rate : SyntheticRate) (nowNs : UInt64) : InputBridge :=
  (armSyntheticSource freshSynthetic rate nowNs .done).2

/-- Calls that are passed the given expirations, with all clocks at zero. -/
def expire (bursts : List UInt64) : List MainCall :=
  bursts.map fun burst => .synthetic burst (fun _ => 0) fun _ => ⟨0, quietEnv⟩

theorem inLoop_expire (bursts : List UInt64) : ∀ call ∈ expire bursts, call.inLoop = true := by
  intro call hcall
  obtain ⟨burst, -, rfl⟩ := List.mem_map.1 hcall
  rfl

theorem burstsOf_expire (bursts : List UInt64) :
    burstsOf (expire bursts) = bursts.map UInt64.toNat := by
  induction bursts with
  | nil => rfl
  | cons burst bursts ih =>
    show burst.toNat :: burstsOf (expire bursts) = _
    rw [ih]
    rfl

theorem emitRounds_config (b : InputBridge) (clock : Nat → UInt64) (env : Nat → FrameEnv)
    (n : Nat) : (emitRounds b clock env n).2.config = b.config := by
  refine @emitRounds_keeps (fun b' _ => b'.config = b.config) _ ?_ b [] rfl clock env n
    (Nat.le_refl _)
  intro b' _ env record h _
  exact (publishRecord_device b' env record).1.trans h

/-- The calls are enabled. -/
theorem run_expire (bursts : List UInt64) {s : Running}
    (hsource : s.bridge.config.devicePath = false) :
    ∃ t, mainMachine.run s (expire bursts) = some t := by
  induction bursts generalizing s with
  | nil => exact ⟨s, rfl⟩
  | cons burst bursts ih =>
    let call : MainCall := .synthetic burst (fun _ => 0) fun _ => ⟨0, quietEnv⟩
    have hready : s.bridge.ready call = true := by
      rw [InputBridge.ready, hsource]
      rfl
    have hnext : (s.bridge.call call).2.config.devicePath = false := by
      show (emitRounds s.bridge _ _ _).2.config.devicePath = false
      rw [emitRounds_config]
      exact hsource
    obtain ⟨t, ht⟩ := @ih
      ⟨(s.bridge.call call).2, s.attempts ++ attemptsOf (s.bridge.call call).1⟩ hnext
    exact ⟨t, Machine.run_cons.2 ⟨_, mainMachine_step.2 ⟨hready, rfl⟩, ht⟩⟩

/-- Two calls on time, at 1000 Hz. -/
theorem synthetic_schedule_two : ∃ s,
    mainMachine.run ⟨armedSynthetic ⟨1000, rfl⟩ 5, []⟩ (expire [1, 2]) = some s ∧
      s.attempts.length = 3 ∧ ∀ a, s.attempts[2]? = some a → a.timestamp = 4000005 := by
  have hsource : (armedSynthetic ⟨1000, rfl⟩ 5).config.devicePath = false := rfl
  obtain ⟨s, hrun⟩ := @run_expire [1, 2] ⟨armedSynthetic ⟨1000, rfl⟩ 5, []⟩ hsource
  obtain ⟨hlength, -, htimes⟩ := @synthetic_schedule ⟨1000, rfl⟩ freshSynthetic
    (armedSynthetic ⟨1000, rfl⟩ 5) 5 rfl rfl (expire [1, 2]) (inLoop_expire [1, 2]) s hrun
  refine ⟨s, hrun, hlength, ?_⟩
  intro a ha
  exact htimes 2 a (by decide) ha (by decide)

/-- What a run from the arming leaves. -/
theorem run_armed (rate : SyntheticRate) (armedNs : UInt64) (bursts : List UInt64) :
    ∃ s, mainMachine.run ⟨armedSynthetic rate armedNs, []⟩ (expire bursts) = some s ∧
      OnSchedule (firstNs armedNs) rate.periodNs s.bridge s.attempts ∧
      s.attempts.length = ((bursts.map UInt64.toNat).map (min · burstCap)).sum := by
  have hsource : (armedSynthetic rate armedNs).config.devicePath = false := rfl
  have harm : OnSchedule (firstNs armedNs) rate.periodNs (armedSynthetic rate armedNs) [] :=
    @OnSchedule.arm freshSynthetic _ _ _ rfl rfl
  obtain ⟨s, hrun⟩ := @run_expire bursts ⟨armedSynthetic rate armedNs, []⟩ hsource
  obtain ⟨h, hlength⟩ := harm.run (inLoop_expire bursts) hrun
  rw [burstsOf_expire, List.length_nil, Nat.zero_add] at hlength
  exact ⟨s, hrun, h, hlength⟩

/-- The last record of a run is not on time. -/
theorem not_keepsSchedule {first period : Nat} {b : InputBridge} {attempts : List Attempt}
    {bursts : List Nat} {n k : Nat} (h : OnSchedule first period b attempts)
    (hlt : k < attempts.length) (hfor : attemptFor bursts n = some k)
    (hne : (first + k * period) % 2 ^ 64 ≠ 0)
    (hoff : (first + k * period) % 2 ^ 64 ≠ first + n * period) :
    ¬ KeepsSchedule first period bursts attempts := by
  intro hkeeps
  have hk : attempts[k]? = some attempts[k] := List.getElem?_eq_getElem hlt
  exact hoff ((h.times k _ hk hne).symm.trans (hkeeps.onTime n k _ hfor hk))

/-- A burst of a million and one expirations, and one more: the last of the
burst is not counted, and the record behind it has its time.  And a schedule
that does not fit into 64 bits. -/
theorem synthetic_schedule_slips :
    (∃ s, mainMachine.run ⟨armedSynthetic ⟨1000, rfl⟩ 5, []⟩
        (expire [1000001, 1]) = some s ∧
      s.attempts.length ≠ (burstsOf (expire [1000001, 1])).sum ∧
      ¬ KeepsSchedule (firstNs 5) (SyntheticRate.periodNs ⟨1000, rfl⟩)
        (burstsOf (expire [1000001, 1])) s.attempts) ∧
    ∃ s, mainMachine.run ⟨armedSynthetic ⟨1, rfl⟩ 18446744073706551616, []⟩
        (expire [2]) = some s ∧
      ¬ KeepsSchedule (firstNs 18446744073706551616) (SyntheticRate.periodNs ⟨1, rfl⟩)
        (burstsOf (expire [2])) s.attempts := by
  constructor
  · obtain ⟨s, hrun, h, hlength⟩ := run_armed ⟨1000, rfl⟩ 5 [1000001, 1]
    rw [burstsOf_expire]
    have hmillion : s.attempts.length = 1000001 := hlength
    refine ⟨s, hrun, ?_, ?_⟩
    · rw [hmillion]
      decide
    · exact not_keepsSchedule h (by rw [hmillion]; decide)
        (show attemptFor _ 1000001 = some 1000000 by decide) (by decide) (by decide)
  · obtain ⟨s, hrun, h, hlength⟩ := run_armed ⟨1, rfl⟩ 18446744073706551616 [2]
    rw [burstsOf_expire]
    have htwo : s.attempts.length = 2 := hlength
    exact ⟨s, hrun, not_keepsSchedule h (by rw [htwo]; decide)
      (show attemptFor _ 1 = some 1 by decide) (by decide) (by decide)⟩

end Hfior
