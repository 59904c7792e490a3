import Hfior.Bridge.Safety
import Hfior.Cursor.Invariant

/-!
# The newest committed record

`hfior_cursor_latest_committed` loads the head and the tail, checks their
distance, and copies the slot below the loaded head.  No ACK stands for that
slot: it may lie below the tail, and then the producer writes it again one
lap later.

`latestMachine` runs the three steps of the query between the steps of
`cursorMachine`.  The other calls of the reader wait for the query.  The
field `answers` is a ghost.

`Retains` is the invariant behind the result: apart from the slot that is
written and not yet published, each slot holds the newest accepted record
of its positions, also when it is acknowledged.
-/

namespace Hfior

/-! ## The function and its steps -/

/-- The test of the query on the two loaded positions. -/
def latestAdmits (capacity : UInt32) (head tail : UInt64) : Bool :=
  !(head < tail || head - tail > capacity.toUInt64)

/-- The copied record, and the test of its sequence. -/
def latestCopy (r : RingHeader) (head : UInt64) : Bool × Record :=
  let record := r.records (slotIndex r.metadata.capacity (head - 1))
  (record.sequence != 0, record)

/-- `hfior_cursor_latest_committed`: its return value, and what it has
stored in `*out`. -/
def latestCommitted (cursor : Option Cursor) (r : RingHeader) (out : Bool) :
    Bool × Option Record :=
  if cursor.isNone || !out then (false, none)
  else if r.producer.head == 0 then (false, none)
  else if latestAdmits r.metadata.capacity r.producer.head r.consumer.tail then
    ((latestCopy r r.producer.head).1, some (latestCopy r r.producer.head).2)
  else (false, none)

/-- Where a query is. -/
inductive QueryPc where
  | idle
  | headLoaded (head : UInt64)
  | tailLoaded (head : UInt64)
deriving DecidableEq

/-- A query that has copied its slot: the loaded head, the return value, the
copied record, and the number of records accepted at the copy. -/
structure LatestAnswer where
  head : UInt64
  result : Bool
  out : Record
  accepted : Nat
deriving DecidableEq

structure LatestSystem where
  system : CursorSystem
  query : QueryPc
  answers : List LatestAnswer

namespace LatestSystem

/-- Before the first query. -/
def initial (s : CursorSystem) : LatestSystem := ⟨s, .idle, []⟩

/-- The head load.  An empty history ends the query. -/
def loadHead (s : LatestSystem) : LatestSystem :=
  { s with query := if s.system.head == 0 then .idle else .headLoaded s.system.head }

/-- The tail load, and the test. -/
def loadTail (s : LatestSystem) (head : UInt64) : LatestSystem :=
  { s with query :=
      if latestAdmits s.system.capacity head s.system.tail then .tailLoaded head else .idle }

/-- The copy. -/
def copy (s : LatestSystem) (head : UInt64) : LatestSystem :=
  let copied := latestCopy s.system.ring head
  { s with
    query := .idle
    answers := s.answers ++ [⟨head, copied.1, copied.2, s.system.accepted.length⟩] }

end LatestSystem

inductive LatestLabel where
  | system (label : CursorLabel)
  | loadHead
  | loadTail
  | copy
deriving DecidableEq

/-- One step.  A query is a call of the reader, which makes no other call
meanwhile. -/
def latestStep (s : LatestSystem) : LatestLabel → Option LatestSystem
  | .system label =>
    if s.query = .idle ∨ label.ofReader = false then
      (cursorMachine.step s.system label).map fun system => { s with system := system }
    else none
  | .loadHead => match s.query, s.system.reader with
    | .idle, .ready _ .idle => some s.loadHead
    | _, _ => none
  | .loadTail => match s.query with
    | .headLoaded head => some (s.loadTail head)
    | _ => none
  | .copy => match s.query with
    | .tailLoaded head => some (s.copy head)
    | _ => none

def latestMachine : Machine LatestSystem LatestLabel where
  step := latestStep

/-- Everything that a step can do. -/
inductive LatestStep (s : LatestSystem) : LatestLabel → LatestSystem → Prop
  | system {label system} (hstep : CursorStep s.system label system) :
    LatestStep s (.system label) { s with system := system }
  | loadHead {c} (hquery : s.query = .idle) (hreader : s.system.reader = .ready c .idle) :
    LatestStep s .loadHead s.loadHead
  | loadTail {head} (hquery : s.query = .headLoaded head) :
    LatestStep s .loadTail (s.loadTail head)
  | copy {head} (hquery : s.query = .tailLoaded head) :
    LatestStep s .copy (s.copy head)

theorem latestStep_cases {s t : LatestSystem} {label : LatestLabel}
    (h : latestMachine.step s label = some t) : LatestStep s label t := by
  have h : latestStep s label = some t := h
  cases label with
  | system label =>
    simp only [latestStep] at h
    split at h
    · obtain ⟨system, hsystem, rfl⟩ := Option.map_eq_some_iff.1 h
      exact .system (cursorStep_cases hsystem)
    · cases h
  | loadHead =>
    simp only [latestStep] at h
    split at h
    · obtain rfl := Option.some.inj h
      exact .loadHead ‹_› ‹_›
    · cases h
  | loadTail =>
    simp only [latestStep] at h
    split at h
    · obtain rfl := Option.some.inj h
      exact .loadTail ‹_›
    · cases h
  | copy =>
    simp only [latestStep] at h
    split at h
    · obtain rfl := Option.some.inj h
      exact .copy ‹_›
    · cases h

/-- The steps of a query, run at once, are
`hfior_cursor_latest_committed`. -/
theorem run_latest {s : LatestSystem} {c : Cursor} (hquery : s.query = .idle)
    (hreader : s.system.reader = .ready c .idle) {result : Bool} {out : Record}
    (h : latestCommitted (some c) s.system.ring true = (result, some out)) :
    ∃ t, latestMachine.run s [.loadHead, .loadTail, .copy] = some t ∧
      t.system = s.system ∧ t.query = .idle ∧
      t.answers = s.answers ++ [⟨s.system.head, result, out, s.system.accepted.length⟩] := by
  simp only [latestCommitted, Option.isNone_some, Bool.not_true, Bool.or_self,
    Bool.false_eq_true, if_false] at h
  split at h
  · cases h
  rename_i hzero
  split at h
  · rename_i hadmits
    obtain ⟨rfl, hout⟩ := Prod.mk.inj h
    obtain rfl := Option.some.inj hout
    have hhead : latestMachine.step s .loadHead =
        some { s with query := .headLoaded s.system.head } := by
      simp only [latestMachine, latestStep, hquery, hreader, LatestSystem.loadHead]
      rw [if_neg (show ¬ (s.system.head == 0) = true from hzero)]
    have htail : latestMachine.step { s with query := .headLoaded s.system.head } .loadTail =
        some { s with query := .tailLoaded s.system.head } := by
      simp only [latestMachine, latestStep, LatestSystem.loadTail]
      rw [if_pos (show latestAdmits s.system.capacity s.system.head s.system.tail = true
        from hadmits)]
    exact ⟨_, Machine.run_cons.2 ⟨_, hhead, Machine.run_cons.2 ⟨_, htail,
      Machine.run_cons.2 ⟨_, rfl, rfl⟩⟩⟩, rfl, rfl, rfl⟩
  · cases h

/-! ## What the slots hold between two publications -/

/-- The slots hold the newest records of the log, also those below the
tail. -/
def RetainsNewest (r : RingHeader) (log : List Record) : Prop :=
  Stores r.metadata.capacity.toNat r.records log (log.length - r.metadata.capacity.toNat)

namespace RetainsNewest

variable {r r' : RingHeader} {log : List Record}

theorem empty (r : RingHeader) : RetainsNewest r [] :=
  fun p hp => absurd hp (Nat.not_lt_zero p)

theorem of_eq (h : RetainsNewest r log) (hmeta : r'.metadata = r.metadata)
    (hrecords : r'.records = r.records) : RetainsNewest r' log := by
  rw [RetainsNewest, hmeta, hrecords]
  exact h

/-- An accepted record takes the slot of the oldest one. -/
theorem ringPublish (h : RetainsNewest r log) (hring : Represents r log) (record : Record)
    (hroom : log.length < r.consumer.tail.toNat + r.metadata.capacity.toNat) :
    RetainsNewest (ringPublish r record).2 (log ++ [record]) := by
  rw [ringPublish_of_room record hring hroom]
  show Stores r.metadata.capacity.toNat (writeSlot r r.producer.head record).records _ _
  have hlater : Stores r.metadata.capacity.toNat r.records log
      (log.length + 1 - r.metadata.capacity.toNat) := by
    apply h.mono
    omega
  rw [List.length_append, List.length_singleton]
  refine Stores.commit ?_ hring.writeSlot_records
  rw [writeSlot, hring.slotIndex_head]
  apply hlater.write
  omega

/-- An attempt of the bridge, accepted or dropped. -/
theorem publishAttempt {b : Bridge} {attempts : List Attempt}
    (h : RetainsNewest b.ring (acceptedRecords attempts))
    (hring : Represents b.ring (acceptedRecords attempts)) (beginNs endNs : UInt64)
    (record : Record) :
    RetainsNewest (publishAttempt b beginNs endNs record).2.ring
      (acceptedRecords (attempts ++ [(publishAttempt b beginNs endNs record).1])) := by
  rw [publishAttempt_ring]
  generalize ha : (Hfior.publishAttempt b beginNs endNs record).1 = a
  have hpublished : a.published =
      (Hfior.ringPublish (allocateSequence b.ring beginNs) a.record).1 := by
    rw [← ha]
    rfl
  have hring' : Represents (allocateSequence b.ring beginNs) (acceptedRecords attempts) :=
    hring.sameWindow ⟨rfl, rfl, rfl, rfl⟩
  have hslots : RetainsNewest (allocateSequence b.ring beginNs) (acceptedRecords attempts) :=
    h.of_eq rfl rfl
  rcases hring.le_tail.eq_or_lt with hfull | hroom
  · have hdrop := ringPublish_of_full a.record hring' hfull
    rw [acceptedRecords_append_of_dropped (by rw [hpublished, hdrop]), hdrop]
    exact hslots.of_eq rfl rfl
  · rw [acceptedRecords_append_of_published (by
      rw [hpublished, ringPublish_of_room _ hring' hroom])]
    exact hslots.ringPublish hring' a.record hroom

end RetainsNewest

/-- Every call of the bridge keeps the newest records in their slots. -/
theorem Serving.retainsNewest_call {s : Serving} (h : Represents s.bridge.ring s.accepted)
    (hretains : RetainsNewest s.bridge.ring s.accepted) (call : BridgeCall) :
    RetainsNewest (s.call call).bridge.ring (s.call call).accepted := by
  cases call with
  | publish env record =>
    apply RetainsNewest.of_eq _ (sameWindow_announce _ _ _ _ _).metadata
      (sameWindow_announce _ _ _ _ _).records
    exact hretains.publishAttempt h env.beginNs env.endNs record
  | control received nowNs urgent =>
    rcases handleControlMessage_cases s.bridge nowNs urgent received with
      ⟨datagram, -, -, hbridge⟩ | ⟨datagram, -, -, hbridge⟩ | hquiet
    · refine hretains.of_eq ?_ ?_ <;> simp only [Serving.call, hbridge] <;> rfl
    · refine hretains.of_eq ?_ ?_ <;> simp only [Serving.call, hbridge, handleSetMode] <;>
        split <;> rfl
    · exact hretains.of_eq hquiet.window.metadata hquiet.window.records
  | gone send urgent =>
    have hwindow := (quiet_markDeviceGone s.bridge send urgent).window
    exact hretains.of_eq hwindow.metadata hwindow.records
  | reconnect fd send urgent =>
    rcases tryReconnectDevice_cases s.bridge send urgent fd with hquiet | hnext
    · exact hretains.of_eq hquiet.window.metadata hquiet.window.records
    · exact hretains.of_eq hnext.window.metadata hnext.window.records

/-- So does every run from a fresh mapping. -/
theorem Serving.retainsNewest_run {s t : Serving} {calls : List BridgeCall}
    (h : Represents s.bridge.ring s.accepted)
    (hretains : RetainsNewest s.bridge.ring s.accepted)
    (hrun : bridgeMachine.run s calls = some t) (hlt : t.accepted.length < 2 ^ 64) :
    RetainsNewest t.bridge.ring t.accepted := by
  have hinv : Represents t.bridge.ring t.accepted ∧
      RetainsNewest t.bridge.ring t.accepted := by
    refine Machine.run_invariant_below
      (fun u : Serving => Represents u.bridge.ring u.accepted ∧
        RetainsNewest u.bridge.ring u.accepted)
      (fun u => u.accepted.length) ?_ ?_ ⟨h, hretains⟩ hrun hlt
    · intro u call v hstep
      cases hstep
      exact (accepted_prefix_call u call).length_le
    · intro u call v hu hv hstep
      cases hstep
      exact ⟨(call_refines hu.1 call hv).1, retainsNewest_call hu.1 hu.2 call⟩
  exact hinv.2

/-! ## What they hold during a publication -/

namespace CursorSystem

variable {s t : CursorSystem}

/-- The slot holds a record whose head store has not happened. -/
def Unpublished (s : CursorSystem) (slot : Nat) : Prop :=
  ∃ record position, s.producer = .wrote record position ∧
    slotIndex s.capacity position = slot

/-- Every other slot holds the newest accepted record of its positions. -/
def Retains (s : CursorSystem) : Prop :=
  ∀ p record, s.accepted[p]? = some record →
    s.accepted.length ≤ p + s.capacity.toNat →
    ¬ s.Unpublished (p % s.capacity.toNat) →
    s.ring.records (p % s.capacity.toNat) = record

namespace Retains

/-- A step that writes no slot and accepts no record. -/
private theorem frame_aux (h : s.Retains)
    (hmeta : t.bridge.ring.metadata = s.bridge.ring.metadata)
    (hrecords : t.bridge.ring.records = s.bridge.ring.records)
    (haccepted : t.accepted = s.accepted)
    (hpc : ∀ record position, s.producer = .wrote record position →
      t.producer = .wrote record position) : t.Retains := by
  have hcapacity : t.capacity = s.capacity := congrArg RingMetadata.capacity hmeta
  have hrecords : t.ring.records = s.ring.records := hrecords
  intro p record hp hwithin hpublished
  rw [hcapacity] at hwithin hpublished ⊢
  rw [haccepted] at hp hwithin
  rw [hrecords]
  apply h p record hp hwithin
  rintro ⟨r, position, hwrote, hslot⟩
  apply hpublished
  exact ⟨r, position, hpc r position hwrote, hcapacity ▸ hslot⟩

theorem publishWrite {record : Record} {head tail : UInt64} (h : s.Retains)
    (hpc : s.producer = .loaded record head tail) : (s.publishWrite record head).Retains := by
  intro p r hp hwithin hpublished
  have hne : p % s.capacity.toNat ≠ slotIndex s.capacity head := by
    intro heq
    exact hpublished ⟨record, head, rfl, heq.symm⟩
  have hkept : (s.publishWrite record head).ring.records (p % s.capacity.toNat) =
      s.ring.records (p % s.capacity.toNat) := Function.update_of_ne hne _ _
  apply hkept.trans
  apply h p r hp hwithin
  rintro ⟨r, position, hwrote, -⟩
  rw [hpc] at hwrote
  cases hwrote

theorem publishStore {record : Record} {head : UInt64} (h : s.Retains) (hinv : CursorInv s)
    (hpc : s.producer = .wrote record head) : (s.publishStore record head).Retains := by
  have hwrote := hinv.producer
  rw [hpc] at hwrote
  obtain ⟨hhead, -, hslot⟩ := hwrote
  have hindex : slotIndex s.capacity head = s.accepted.length % s.capacity.toNat := by
    rw [hhead]
    exact hinv.ring.slotIndex_head
  intro p r hp hwithin _
  have hp : (s.accepted ++ [record])[p]? = some r := hp
  have hwithin : (s.accepted ++ [record]).length ≤ p + s.capacity.toNat := hwithin
  rw [List.length_append, List.length_singleton] at hwithin
  show s.ring.records (p % s.capacity.toNat) = r
  by_cases hlt : p < s.accepted.length
  · rw [List.getElem?_append_left hlt] at hp
    apply h p r hp (by omega)
    -- The slot of the head is that of no other position of the last lap.
    rintro ⟨r', position, hwrote, hposition⟩
    rw [hpc] at hwrote
    obtain ⟨rfl, rfl⟩ := ProducerPc.wrote.inj hwrote
    apply mod_ne_mod_of_lt hlt _ (hposition.symm.trans hindex)
    omega
  · rw [List.getElem?_append_right (Nat.le_of_not_lt hlt)] at hp
    rw [List.getElem?_singleton] at hp
    split at hp
    · obtain rfl := Option.some.inj hp
      have hp' : p = s.accepted.length := by omega
      rw [hp', ← hindex]
      exact hslot
    · cases hp

/-- Every step keeps what the slots hold. -/
theorem step (h : s.Retains) (hinv : CursorInv s) {label : CursorLabel}
    (hstep : CursorStep s label t) : t.Retains := by
  cases hstep with
  | publishLoad hpc =>
    refine h.frame_aux rfl rfl rfl ?_
    intro record position hwrote
    rw [hpc] at hwrote
    cases hwrote
  | publishDrop hpc hfull =>
    refine h.frame_aux rfl rfl rfl ?_
    intro record position hwrote
    rw [hpc] at hwrote
    cases hwrote
  | publishWrite hpc hroom => exact h.publishWrite hpc
  | publishStore hpc => exact h.publishStore hinv hpc
  | drain hreader | latchPass hreader =>
    simp only [CursorSystem.startRead]
    split <;> exact h.frame_aux rfl rfl rfl fun _ _ hwrote => hwrote
  | ack hreader =>
    simp only [CursorSystem.sendAck]
    split
    · exact h
    · exact h.frame_aux rfl rfl rfl fun _ _ hwrote => hwrote
  | deliver hchannel =>
    rw [CursorSystem.deliver_eq]
    obtain ⟨hmeta, -, hrecords⟩ := handleAck_frame (countControlMessage s.bridge) _ _ _
    exact h.frame_aux hmeta hrecords rfl fun _ _ hwrote => hwrote
  | @gone send urgent =>
    have hwindow := (quiet_markDeviceGone s.bridge send urgent).window
    exact h.frame_aux hwindow.metadata hwindow.records rfl fun _ _ hwrote => hwrote
  | @reconnect fd send urgent =>
    rcases tryReconnectDevice_cases s.bridge send urgent fd with hquiet | hnext
    · exact h.frame_aux hquiet.window.metadata hquiet.window.records rfl
        fun _ _ hwrote => hwrote
    · exact h.frame_aux hnext.window.metadata hnext.window.records rfl
        fun _ _ hwrote => hwrote
  | _ => exact h.frame_aux rfl rfl rfl fun _ _ hwrote => hwrote

end Retains

theorem retains_initial {b : Bridge} {log : List Record} {generations : List UInt64}
    (h : RetainsNewest b.ring log) : (initial b log generations).Retains := by
  intro p record hp hwithin _
  obtain ⟨hlt, rfl⟩ := List.getElem?_eq_some_iff.1 hp
  apply h p hlt
  have : log.length ≤ p + b.ring.metadata.capacity.toNat := hwithin
  omega

/-- A slot that is written and not yet published is no slot of the window. -/
theorem not_unpublished_of_tail_le (h : CursorInv s) {p : Nat} (hlo : s.tail.toNat ≤ p)
    (hp : p < s.accepted.length) : ¬ s.Unpublished (p % s.capacity.toNat) := by
  rintro ⟨record, position, hpc, hslot⟩
  have hwrote := h.producer
  rw [hpc] at hwrote
  obtain ⟨hhead, hroom, -⟩ := hwrote
  have hindex : slotIndex s.capacity position = s.accepted.length % s.capacity.toNat := by
    rw [hhead]
    exact h.ring.slotIndex_head
  rw [hhead, h.ring.head] at hroom
  apply mod_ne_mod_of_lt hp _ (hslot.symm.trans hindex)
  have : s.accepted.length < s.tail.toNat + s.capacity.toNat := hroom
  omega

end CursorSystem

/-! ## Every interleaving -/

/-- The answer is an accepted record, whose head store had happened at the
copy, at a position from the loaded head minus one on. -/
def LatestAnswer.Committed (a : LatestAnswer) (accepted : List Record) : Prop :=
  ∃ p, a.head.toNat - 1 ≤ p ∧ p < a.accepted ∧ accepted[p]? = some a.out

namespace LatestSystem

/-- The condition on a copy.  The record below the loaded head is not yet
acknowledged, or the producer is not between the write of the slot of a
later lap of it and the head store. -/
def copiesSettled (s : LatestSystem) : LatestLabel → Bool
  | .copy => match s.query, s.system.producer with
    | .tailLoaded head, .wrote _ position =>
      s.system.tail < head ||
        slotIndex s.system.capacity position != slotIndex s.system.capacity (head - 1)
    | _, _ => true
  | _ => true

/-- The head that a query has loaded is one that was stored. -/
def QueryInv (s : LatestSystem) : Prop :=
  match s.query with
  | .idle => True
  | .headLoaded head | .tailLoaded head =>
    0 < head.toNat ∧ head.toNat ≤ s.system.accepted.length

structure LatestInv (s : LatestSystem) : Prop where
  base : CursorInv s.system
  retains : s.system.Retains
  query : s.QueryInv
  answers : ∀ a ∈ s.answers, a.Committed s.system.accepted

namespace LatestInv

variable {s t : LatestSystem} {head : UInt64}

theorem system (h : LatestInv s) {label : CursorLabel} {system : CursorSystem}
    (hstep : CursorStep s.system label system) (hlt : system.accepted.length < 2 ^ 64) :
    LatestInv { s with system := system } := by
  have hextends := hstep.accepted_extends
  have hlength := hextends.length_le
  refine ⟨h.base.step hstep hlt, h.retains.step h.base hstep, ?_, ?_⟩
  · have hquery := h.query
    unfold QueryInv at hquery ⊢
    cases hpc : s.query with
    | idle => trivial
    | headLoaded head | tailLoaded head =>
      rw [hpc] at hquery
      exact ⟨hquery.1, hquery.2.trans hlength⟩
  · intro a ha
    obtain ⟨p, hlo, hp, hout⟩ := h.answers a ha
    refine ⟨p, hlo, hp, ?_⟩
    obtain ⟨hlt, -⟩ := List.getElem?_eq_some_iff.1 hout
    obtain ⟨rest, hrest⟩ := hextends
    show system.accepted[p]? = _
    rw [← hrest, List.getElem?_append_left hlt]
    exact hout

/-- The slot below a loaded head. -/
theorem slotIndex_below (h : LatestInv s) (hpos : 0 < head.toNat) :
    slotIndex s.system.capacity (head - 1) =
      (head.toNat - 1) % s.system.capacity.toNat := by
  have hbelow : (head - 1).toNat = head.toNat - 1 := by
    rw [UInt64.toNat_sub_of_le, UInt64.toNat_one]
    rw [UInt64.le_iff_toNat_le]
    exact hpos
  rw [← hbelow]
  exact slotIndex_eq_mod h.base.ring.pow2 _

/-- The newest accepted record of the slot is copied. -/
theorem copy (h : LatestInv s) (hquery : s.query = .tailLoaded head)
    (hsettled : s.copiesSettled .copy = true) : LatestInv (s.copy head) := by
  have hhead := h.query
  rw [QueryInv, hquery] at hhead
  obtain ⟨hpos, hle⟩ := hhead
  have hslot := h.slotIndex_below hpos
  have hcapacity : 0 < s.system.capacity.toNat := by
    obtain ⟨k, -, hk⟩ := exists_pow_of_isPowerOfTwoU32 h.base.ring.pow2
    have hk : s.system.capacity.toNat = 2 ^ k := hk
    rw [hk]
    exact Nat.two_pow_pos k
  obtain ⟨q, hlo, hq, hwithin, hmod⟩ := exists_newest_position hcapacity
    (show head.toNat - 1 < s.system.accepted.length by omega)
  have hpublished : ¬ s.system.Unpublished (q % s.system.capacity.toNat) := by
    by_cases htail : s.system.tail < head
    · rw [hmod]
      rw [UInt64.lt_iff_toNat_lt] at htail
      apply CursorSystem.not_unpublished_of_tail_le h.base
      · omega
      · omega
    · rintro ⟨record, position, hpc, hposition⟩
      rw [hmod, ← hslot] at hposition
      simp [copiesSettled, hquery, hpc, htail, hposition] at hsettled
  refine ⟨h.base, h.retains, trivial, ?_⟩
  intro a ha
  rcases List.mem_append.1 ha with hold | hnew
  · exact h.answers a hold
  · rw [List.eq_of_mem_singleton hnew]
    refine ⟨q, hlo, hq, ?_⟩
    have hkept := h.retains q _ (List.getElem?_eq_getElem hq) hwithin hpublished
    rw [hmod, ← hslot] at hkept
    exact (List.getElem?_eq_getElem hq).trans (congrArg some hkept.symm)

theorem step (h : LatestInv s) {label : LatestLabel} (hstep : LatestStep s label t)
    (hsettled : s.copiesSettled label = true) (hlt : t.system.accepted.length < 2 ^ 64) :
    LatestInv t := by
  cases hstep with
  | system hstep => exact h.system hstep hlt
  | loadHead hquery hreader =>
    refine ⟨h.base, h.retains, ?_, h.answers⟩
    by_cases hzero : s.system.head = 0
    · simp [QueryInv, LatestSystem.loadHead, hzero]
    · simp only [QueryInv, LatestSystem.loadHead, beq_iff_eq, hzero, if_false]
      have hhead : s.system.head.toNat = s.system.accepted.length := h.base.ring.head
      have hpos : s.system.head.toNat ≠ 0 := fun h0 => hzero (UInt64.toNat_inj.1 h0)
      omega
  | @loadTail head hquery =>
    refine ⟨h.base, h.retains, ?_, h.answers⟩
    have hhead := h.query
    rw [QueryInv, hquery] at hhead
    simp only [QueryInv, LatestSystem.loadTail]
    by_cases hadmits : latestAdmits s.system.capacity head s.system.tail = true
    · rw [if_pos hadmits]
      exact hhead
    · rw [if_neg hadmits]
      trivial
  | copy hquery => exact h.copy hquery hsettled

end LatestInv

end LatestSystem

theorem latestMachine_mono {s t : LatestSystem} {label : LatestLabel}
    (hstep : latestMachine.step s label = some t) :
    s.system.accepted.length ≤ t.system.accepted.length := by
  cases latestStep_cases hstep with
  | system hsystem => exact hsystem.accepted_extends.length_le
  | loadHead | loadTail | copy => exact Nat.le_refl _

/-- The machine whose copies meet the condition. -/
def settledMachine : Machine LatestSystem LatestLabel :=
  latestMachine.guard fun s label => s.copiesSettled label = true

/-- What the query promises. -/
def AnswersCommitted (s : LatestSystem) : Prop :=
  ∀ a ∈ s.answers, a.result = true → a.Committed s.system.accepted

/-- What every condition that settles the copies leaves. -/
theorem LatestSystem.latestInv_run {b : Bridge} {log : List Record} {generations : List UInt64}
    (h : Represents b.ring log) (hlength : generations.length = log.length)
    (hretains : RetainsNewest b.ring log) {c : LatestSystem → LatestLabel → Prop}
    [∀ u label, Decidable (c u label)]
    (hsettles : ∀ u label, LatestInv u → c u label → u.copiesSettled label = true)
    {labels : List LatestLabel} {s : LatestSystem}
    (hrun : (latestMachine.guard c).run (.initial (.initial b log generations)) labels = some s)
    (hlt : s.system.accepted.length < 2 ^ 64) : LatestInv s := by
  have hinitial : (LatestSystem.initial (.initial b log generations)).LatestInv :=
    ⟨cursorInv_initial h hlength, CursorSystem.retains_initial hretains, trivial,
      fun a ha => absurd ha List.not_mem_nil⟩
  refine Machine.run_invariant_below LatestSystem.LatestInv
    (fun u => u.system.accepted.length) ?_ ?_ hinitial hrun hlt
  · intro u label v hstep
    exact latestMachine_mono (Machine.guard_step.1 hstep).2
  · intro u label v hu hv hstep
    obtain ⟨hc, hstep⟩ := Machine.guard_step.1 hstep
    exact hu.step (latestStep_cases hstep) (hsettles u label hu hc) hv

/-- From every ring that a bridge has filled (`retainsNewest_run`), in every
run whose copies meet the condition, a query that returns true returns a
committed record that is not older than the head that it has loaded. -/
theorem latest_committed_of_settled {b : Bridge} {log : List Record}
    {generations : List UInt64} (h : Represents b.ring log)
    (hlength : generations.length = log.length)
    (hretains : RetainsNewest b.ring log) {labels : List LatestLabel} {s : LatestSystem}
    (hrun : settledMachine.run (.initial (.initial b log generations)) labels = some s)
    (hlt : s.system.accepted.length < 2 ^ 64) : AnswersCommitted s := by
  have hinv : s.LatestInv := LatestSystem.latestInv_run h hlength hretains
    (fun _ _ _ hsettled => hsettled) hrun hlt
  exact fun a ha _ => hinv.answers a ha

/-- One record is accepted, read and acknowledged in a ring of one slot,
and a query loads both positions before the second record is written. -/
def queryAcrossLap : List LatestLabel :=
  [.publishLoad (blankRecord 1 HFIOR_RECORD_MOTION), .publishWrite, .publishStore,
    .initHead, .initTail 5 1 false, .drain 8, .copy, .advance, .ack .done,
    .deliver 0 .done].map .system ++
  [.loadHead, .loadTail,
    .system (.publishLoad (blankRecord 2 HFIOR_RECORD_MOTION)), .system .publishWrite]

theorem latest_committed_of_settled_lap :
    ∃ s, settledMachine.run (.initial (.initial (freshBridge 1) [] []))
      (queryAcrossLap ++ [.system .publishStore, .copy]) = some s ∧ AnswersCommitted s := by
  have hring : Represents (freshBridge 1).ring [] :=
    represents_freshHeader (by decide) _ _ _ _
  have hrun : settledMachine.run (.initial (.initial (freshBridge 1) [] []))
      (queryAcrossLap ++ [.system .publishStore, .copy]) = some _ := rfl
  refine ⟨_, hrun, latest_committed_of_settled hring rfl ?_ hrun ?_⟩
  · exact .empty _
  · decide

/-- The copy before the head store returns the record that is not yet
published. -/
theorem latest_uncommitted : ¬ ∀ labels s,
    latestMachine.run (.initial (.initial (freshBridge 1) [] [])) labels = some s →
      AnswersCommitted s := by
  intro h
  have hrun : latestMachine.run (.initial (.initial (freshBridge 1) [] []))
      (queryAcrossLap ++ [.copy]) = some _ := rfl
  have hcommitted := h _ _ hrun ⟨1, true, blankRecord 2 HFIOR_RECORD_MOTION, 1⟩
    (List.mem_singleton.2 rfl) rfl
  obtain ⟨p, -, hp, hout⟩ := hcommitted
  rw [Nat.lt_one_iff.1 hp] at hout
  have heq : some (blankRecord 1 HFIOR_RECORD_MOTION) =
      some (blankRecord 2 HFIOR_RECORD_MOTION) := hout
  revert heq
  decide

/-! ## Queries that are quick enough -/

/-- A condition on the other party: at the copy the record below the loaded
head is not yet acknowledged, or the bridge has begun fewer publications
since the head load than the ring has slots. -/
def LatestSystem.copiesInTime (s : LatestSystem) : LatestLabel → Bool
  | .copy => match s.query with
    | .tailLoaded head => s.system.tail < head ||
        s.system.head.toNat + 1 < head.toNat + s.system.capacity.toNat
    | _ => true
  | _ => true

/-- The slot in work is that of no position of the lap behind the loaded
head. -/
theorem LatestSystem.LatestInv.copiesSettled {s : LatestSystem} (h : s.LatestInv)
    {label : LatestLabel} (hintime : s.copiesInTime label = true) :
    s.copiesSettled label = true := by
  cases label with
  | system | loadHead | loadTail => rfl
  | copy =>
    cases hquery : s.query with
    | idle | headLoaded => simp [LatestSystem.copiesSettled, hquery]
    | tailLoaded head =>
      cases hpc : s.system.producer with
      | wrote record position =>
        simp only [LatestSystem.copiesInTime, hquery, Bool.or_eq_true, decide_eq_true_eq]
          at hintime
        simp only [LatestSystem.copiesSettled, hquery, hpc, Bool.or_eq_true, decide_eq_true_eq,
          bne_iff_ne]
        refine hintime.imp_right fun hfew hslot => ?_
        have hhead := h.query
        rw [LatestSystem.QueryInv, hquery] at hhead
        have hwrote := h.base.producer
        rw [hpc] at hwrote
        have haccepted : s.system.head.toNat = s.system.accepted.length := h.base.ring.head
        rw [h.slotIndex_below hhead.1, hwrote.1] at hslot
        rw [haccepted] at hfew
        refine mod_ne_mod_of_lt ?_ ?_ (hslot.symm.trans h.base.ring.slotIndex_head)
        · omega
        · omega
      | _ => simp [LatestSystem.copiesSettled, hquery, hpc]

/-- In every run whose queries are quick enough. -/
theorem latest_committed_of_inTime {b : Bridge} {log : List Record} {generations : List UInt64}
    (h : Represents b.ring log) (hlength : generations.length = log.length)
    (hretains : RetainsNewest b.ring log) {labels : List LatestLabel} {s : LatestSystem}
    (hrun : (latestMachine.guard fun s label => s.copiesInTime label = true).run
      (.initial (.initial b log generations)) labels = some s)
    (hlt : s.system.accepted.length < 2 ^ 64) : AnswersCommitted s := by
  have hinv : s.LatestInv := LatestSystem.latestInv_run h hlength hretains
    (fun _ _ hu hintime => hu.copiesSettled hintime) hrun hlt
  exact fun a ha _ => hinv.answers a ha

end Hfior
