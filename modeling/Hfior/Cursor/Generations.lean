import Hfior.Cursor.Invariant

/-!
# Generations and the histories of a cursor

A cursor stores the generation that it is made with, and no read compares
it with the generation of the ring.  Positions run on across a reconnect,
so a drain that starts after a reconnect returns records of the new
generation behind those of the old one.

`sameGeneration` is the condition under which the histories stay apart: the
cursor is made with the generation of the ring and of every record from its
first position on, and no drain starts once the generation has moved on.
`histories_apart_of_sameGeneration` is the result.
-/

namespace Hfior

namespace CursorSystem

variable {s t : CursorSystem} {c : Cursor} {head : UInt64}

/-- The position at which the cursor would begin. -/
def startPosition (s : CursorSystem) (beginAtCurrentHead : Bool) : Nat :=
  match s.reader with
  | .headLoaded head => if beginAtCurrentHead then head.toNat else s.tail.toNat
  | _ => 0

/-- The condition on a step: a cursor is made with the generation of the
ring and of the records that it will read, and a drain starts under the
generation that its cursor was made with. -/
def sameGeneration (s : CursorSystem) : CursorLabel → Bool
  | .initTail _ generation beginAtCurrentHead =>
    generation == s.ring.producer.generation &&
      (s.generations.drop (s.startPosition beginAtCurrentHead)).all
        fun g => g == generation
  | .drain _ | .latchPass => !s.moved
  | _ => true

/-- Every record that a drain returned was accepted under the generation of
the cursor, and a drain that starts after the generation has moved on
fails. -/
def HistoriesApart (s : CursorSystem) : Prop :=
  ∀ c phase, s.reader = .ready c phase →
    (∀ i, (h : i < s.returned.length) →
      s.accepted[s.start + i]? = some s.returned[i] ∧
        s.generations[s.start + i]? = some c.generation) ∧
    ∀ outcome ∈ s.reads, outcome.afterMove = true → outcome.success = false

end CursorSystem

/-- The machine whose steps meet the condition. -/
def generationMachine : Machine CursorSystem CursorLabel :=
  cursorMachine.guard fun s label => s.sameGeneration label = true

namespace CursorSystem

variable {s t : CursorSystem} {c : Cursor} {head : UInt64}

/-- The positions that the reader has copied, or will copy in the running
drain, end here. -/
def readEnd (c : Cursor) : ReadPhase → Nat
  | .copying available _ _ => c.localTail.toNat + available.toNat
  | _ => c.localTail.toNat

/-- The accepted records from `lo` up to `hi` are of the generation. -/
def OfGeneration (s : CursorSystem) (lo hi : Nat) (generation : UInt64) : Prop :=
  ∀ p, lo ≤ p → p < hi → s.generations[p]? = some generation

/-- All that the reader may read is of the generation of its cursor, and so
is all that is accepted while the generation has not moved on. -/
structure GenerationInv (s : CursorSystem) : Prop where
  base : CursorInv s
  reads : ∀ outcome ∈ s.reads, outcome.afterMove = false
  current : ∀ c phase, s.reader = .ready c phase → s.moved = false →
    s.ring.producer.generation = c.generation ∧
      s.OfGeneration s.start s.accepted.length c.generation
  read : ∀ c phase, s.reader = .ready c phase →
    s.OfGeneration s.start (readEnd c phase) c.generation

namespace GenerationInv

/-- A step keeps the invariant if it keeps the generations and the ghosts,
and its reader, if any, is a reader of before that will not read further. -/
private theorem frame_aux (h : GenerationInv s) (hbase : CursorInv t)
    (hreader : ∀ c' phase', t.reader = .ready c' phase' →
      ∃ c phase, s.reader = .ready c phase ∧ c'.generation = c.generation ∧
        readEnd c' phase' ≤ readEnd c phase)
    (hring : t.ring.producer.generation = s.ring.producer.generation)
    (hgenerations : t.generations = s.generations)
    (haccepted : t.accepted = s.accepted) (hstart : t.start = s.start)
    (hmoved : t.moved = s.moved) (hreads : t.reads = s.reads) :
    GenerationInv t where
  base := hbase
  reads := hreads ▸ h.reads
  current := by
    intro c' phase' hc' hm
    obtain ⟨c, phase, hs, hgen, -⟩ := hreader c' phase' hc'
    rw [hmoved] at hm
    obtain ⟨hcurrent, hall⟩ := h.current c phase hs hm
    rw [hring, hgen, OfGeneration, hgenerations, haccepted, hstart]
    exact ⟨hcurrent, hall⟩
  read := by
    intro c' phase' hc' p hlo hhi
    obtain ⟨c, phase, hs, hgen, hend⟩ := hreader c' phase' hc'
    rw [hgenerations, hgen]
    exact h.read c phase hs p (hstart ▸ hlo) (hhi.trans_le hend)

/-- An accepted record is of the generation of the ring. -/
private theorem publishStore_aux (h : GenerationInv s) (record : Record)
    (head : UInt64) (hbase : CursorInv (s.publishStore record head)) :
    GenerationInv (s.publishStore record head) := by
  have hold : ∀ p, p < s.accepted.length →
      (s.publishStore record head).generations[p]? = s.generations[p]? := by
    intro p hp
    rw [← h.base.generations] at hp
    exact List.getElem?_append_left hp
  refine ⟨hbase, h.reads, ?_, ?_⟩
  · intro c phase hc hm
    obtain ⟨hcurrent, hall⟩ := h.current c phase hc hm
    refine ⟨hcurrent, fun p hlo hhi => ?_⟩
    simp only [publishStore, List.length_append, List.length_singleton] at hhi
    rcases Nat.lt_succ_iff_lt_or_eq.1 hhi with hlt | rfl
    · rw [hold p hlt]
      exact hall p hlo hlt
    · show (s.generations ++ [s.bridge.ring.producer.generation])[_]? = _
      rw [← h.base.generations, List.getElem?_concat_length]
      exact congrArg some hcurrent
  · intro c phase hc p hlo hhi
    have hr := h.base.reader
    rw [show s.reader = .ready c phase from hc] at hr
    obtain ⟨-, -, hlocal, -, -, hphase⟩ := hr
    have hend : readEnd c phase ≤ s.accepted.length := by
      cases phase with
      | copying n copied latch => exact hphase.1
      | idle | latchPass l | latchCheck l => exact hlocal
    rw [hold p (hhi.trans_le hend)]
    exact h.read c phase hc p hlo hhi

/-- A new cursor, under the condition. -/
private theorem makeCursor_aux (h : GenerationInv s)
    (hreader : s.reader = .headLoaded head) {fd : Int32} {generation : UInt64}
    {beginAtCurrentHead : Bool}
    (hcond : s.sameGeneration (.initTail fd generation beginAtCurrentHead) = true)
    (hbase : CursorInv (s.makeCursor fd generation beginAtCurrentHead head)) :
    GenerationInv (s.makeCursor fd generation beginAtCurrentHead head) := by
  unfold sameGeneration at hcond
  simp only [startPosition, hreader, Bool.and_eq_true,
    beq_iff_eq, List.all_eq_true] at hcond
  obtain ⟨hcurrent, hunread⟩ := hcond
  have hstart : (s.makeCursor fd generation beginAtCurrentHead head).start =
      if beginAtCurrentHead then head.toNat else s.tail.toNat := by
    cases beginAtCurrentHead <;> rfl
  refine ⟨hbase, h.reads, ?_, ?_⟩
  · intro c phase hc _
    cases hc
    refine ⟨hcurrent.symm, fun p hlo hhi => ?_⟩
    rw [hstart] at hlo
    have hp : p < s.generations.length := by
      rw [h.base.generations]
      exact hhi
    generalize (if beginAtCurrentHead then head.toNat else s.tail.toNat) = lo
      at hlo hunread
    have hmem : s.generations[p] ∈ s.generations.drop lo :=
      List.mem_drop_iff_getElem.2
        ⟨p - lo, by omega, by simp only [Nat.add_sub_cancel' hlo]⟩
    show s.generations[p]? = some generation
    rw [List.getElem?_eq_getElem hp, hunread _ hmem]
  · intro c phase hc p hlo hhi
    cases hc
    exact absurd hhi (Nat.not_lt.2 hlo)

/-- A drain that starts while the generation has not moved on. -/
private theorem startRead_aux (h : GenerationInv s) {phase : ReadPhase}
    (hreader : s.reader = .ready c phase) (maxRecords : UInt64)
    (latch : Option Latch) (hmoved : s.moved = false)
    (hbase : CursorInv (s.startRead c maxRecords latch)) :
    GenerationInv (s.startRead c maxRecords latch) := by
  obtain ⟨n, hn, hle⟩ := h.base.available hreader maxRecords
  simp only [startRead, hn] at hbase ⊢
  obtain ⟨hcurrent, hall⟩ := h.current c phase hreader hmoved
  refine ⟨hbase, ?_, ?_, ?_⟩
  · intro outcome hmem
    rcases List.mem_append.1 hmem with hold | hnew
    · exact h.reads outcome hold
    · rw [List.eq_of_mem_singleton hnew]
      exact hmoved
  · intro d p hd _
    cases hd
    exact ⟨hcurrent, hall⟩
  · intro d p hd q hlo hhi
    cases hd
    exact hall q hlo (hhi.trans_le hle)

/-- A reconnect that succeeds is seen by the ghost `moved`. -/
private theorem reconnect_aux (h : GenerationInv s) (fd : Int32)
    (send urgent : IoResult) (hbase : CursorInv (s.reconnect fd send urgent)) :
    GenerationInv (s.reconnect fd send urgent) := by
  refine ⟨hbase, h.reads, ?_, h.read⟩
  intro c phase hc hm
  simp only [reconnect, Bool.or_eq_false_iff, bne_eq_false_iff_eq] at hm
  obtain ⟨hcurrent, hall⟩ := h.current c phase hc hm.1
  rcases tryReconnectDevice_cases s.bridge send urgent fd with hquiet | hnext
  · exact ⟨hquiet.producerGeneration.trans hcurrent, hall⟩
  · have hne : s.bridge.generation + 1 ≠ s.bridge.generation := by
      have := s.bridge.generation.toNat_lt
      rw [ne_eq, ← UInt64.toNat_inj, UInt64.toNat_add, UInt64.toNat_one]
      omega
    exact absurd (hnext.generation.symm.trans hm.2) hne

/-- Every step that meets the condition keeps the invariant. -/
theorem step (h : GenerationInv s) {label : CursorLabel}
    (hstep : CursorStep s label t) (hcond : s.sameGeneration label = true)
    (hlt : t.accepted.length < 2 ^ 64) : GenerationInv t := by
  have hbase := h.base.step hstep hlt
  cases hstep with
  | publishLoad hpc =>
    exact h.frame_aux hbase (fun c phase hc => ⟨c, phase, hc, rfl, Nat.le_refl _⟩)
      rfl rfl rfl rfl rfl rfl
  | publishDrop hpc hfull =>
    exact h.frame_aux hbase (fun c phase hc => ⟨c, phase, hc, rfl, Nat.le_refl _⟩)
      rfl rfl rfl rfl rfl rfl
  | publishWrite hpc hroom =>
    exact h.frame_aux hbase (fun c phase hc => ⟨c, phase, hc, rfl, Nat.le_refl _⟩)
      rfl rfl rfl rfl rfl rfl
  | publishStore hpc => exact h.publishStore_aux _ _ hbase
  | initHead hreader =>
    exact h.frame_aux hbase (fun c phase hc => by cases hc) rfl rfl rfl rfl rfl rfl
  | initTail hreader => exact h.makeCursor_aux hreader hcond hbase
  | drain hreader =>
    exact h.startRead_aux hreader _ _ (Bool.not_eq_true' _ ▸ hcond) hbase
  | latchPass hreader =>
    exact h.startRead_aux hreader _ _ (Bool.not_eq_true' _ ▸ hcond) hbase
  | latch hreader =>
    refine h.frame_aux hbase (fun c phase hc => ?_) rfl rfl rfl rfl rfl rfl
    cases hc
    refine ⟨_, _, hreader, rfl, Nat.le_of_eq ?_⟩
    split
    · rfl
    · split <;> rfl
  | latchCheck hreader =>
    refine h.frame_aux hbase (fun c phase hc => ?_) rfl rfl rfl rfl rfl rfl
    cases hc
    refine ⟨_, _, hreader, rfl, Nat.le_of_eq ?_⟩
    split <;> rfl
  | copy hreader hcopy =>
    refine h.frame_aux hbase (fun c phase hc => ?_) rfl rfl rfl rfl rfl rfl
    cases hc
    exact ⟨_, _, hreader, rfl, Nat.le_refl _⟩
  | advance hreader heq =>
    refine h.frame_aux hbase (fun c phase hc => ?_) rfl rfl rfl rfl rfl rfl
    cases hc
    refine ⟨_, _, hreader, rfl, ?_⟩
    -- The local tail moves to the end of the copied positions.
    split <;> exact (UInt64.toNat_add _ _).trans_le (Nat.mod_le _ _)
  | ack hreader =>
    unfold sendAck at hbase ⊢
    split at hbase
    · exact h
    · rename_i c' message hsent
      obtain ⟨hlocal, -⟩ := cursorAck_acknowledged hsent
      refine h.frame_aux hbase (fun c phase hc => ?_) rfl rfl rfl rfl rfl rfl
      cases hc
      exact ⟨_, _, hreader, cursorAck_generation hsent, Nat.le_of_eq
        (congrArg UInt64.toNat hlocal)⟩
  | deliver hchannel =>
    rw [deliver_eq] at hbase ⊢
    exact h.frame_aux hbase (fun c phase hc => ⟨c, phase, hc, rfl, Nat.le_refl _⟩)
      (handleAck_producer_generation _ _) rfl rfl rfl rfl rfl
  | gone =>
    exact h.frame_aux hbase (fun c phase hc => ⟨c, phase, hc, rfl, Nat.le_refl _⟩)
      (quiet_markDeviceGone s.bridge _ _).producerGeneration rfl rfl rfl rfl rfl
  | reconnect => exact h.reconnect_aux _ _ _ hbase

theorem run (h : GenerationInv s) {labels : List CursorLabel}
    (hrun : generationMachine.run s labels = some t)
    (hlt : t.accepted.length < 2 ^ 64) : GenerationInv t := by
  have hmono : ∀ u label v, generationMachine.step u label = some v →
      u.accepted.length ≤ v.accepted.length := by
    intro u label v hstep
    exact cursorMachine_mono (Machine.guard_step.1 hstep).2
  have hkeep : ∀ u label v, GenerationInv u → v.accepted.length < 2 ^ 64 →
      generationMachine.step u label = some v → GenerationInv v := by
    intro u label v hu hv hstep
    obtain ⟨hcond, hstep⟩ := Machine.guard_step.1 hstep
    exact hu.step (cursorStep_cases hstep) hcond hv
  exact Machine.run_invariant_below GenerationInv (fun u => u.accepted.length)
    hmono hkeep h hrun hlt

theorem initial {b : Bridge} {log : List Record} {generations : List UInt64}
    (h : Represents b.ring log) (hlength : generations.length = log.length) :
    GenerationInv (CursorSystem.initial b log generations) := by
  refine ⟨cursorInv_initial h hlength, ?_, ?_, ?_⟩
  · intro outcome hmem
    cases hmem
  · intro c phase hc
    cases hc
  · intro c phase hc
    cases hc

theorem historiesApart (h : GenerationInv s) : s.HistoriesApart := by
  intro c phase hc
  constructor
  · intro i hi
    have hr := h.base.reader
    rw [hc] at hr
    obtain ⟨-, -, hlocal, hs, hreturned, -⟩ := hr
    have hlength : s.returned.length = c.localTail.toNat - s.start := by
      rw [hreturned, slice_length hlocal]
    have hend : c.localTail.toNat ≤ readEnd c phase := by
      cases phase with
      | copying n copied latch => exact Nat.le_add_right _ _
      | idle | latchPass l | latchCheck l => exact Nat.le_refl _
    refine ⟨?_, h.read c phase hc _ (Nat.le_add_right _ _) (by omega)⟩
    rw [List.getElem?_eq_getElem (by omega), Option.some.injEq]
    simp only [hreturned, slice, List.getElem_drop, List.getElem_take]
  · intro outcome hmem hafter
    rw [h.reads outcome hmem] at hafter
    cases hafter

end GenerationInv

end CursorSystem

/-- In every run whose cursor is made with the generation of the ring and of
its unread records, and whose drains all start before the generation moves
on, the histories of different generations stay apart. -/
theorem histories_apart_of_sameGeneration {b : Bridge} {log : List Record}
    {generations : List UInt64} (h : Represents b.ring log)
    (hlength : generations.length = log.length)
    {labels : List CursorLabel} {s : CursorSystem}
    (hrun : generationMachine.run (CursorSystem.initial b log generations) labels =
      some s)
    (hlt : s.accepted.length < 2 ^ 64) : s.HistoriesApart :=
  ((CursorSystem.GenerationInv.initial h hlength).run hrun hlt).historiesApart

/-- A record is read, and then the device reconnects. -/
def readThenReconnect : List CursorLabel :=
  [.initHead, .initTail 5 1 true,
    .publishLoad (blankRecord 1 HFIOR_RECORD_MOTION), .publishWrite, .publishStore,
    .drain 8, .copy, .advance, .reconnect 7 .done .done]

theorem histories_apart_before_reconnect :
    ∃ s, generationMachine.run (.initial (freshBridge 2) [] []) readThenReconnect =
      some s ∧ s.HistoriesApart := by
  have hrun : generationMachine.run (.initial (freshBridge 2) [] [])
      readThenReconnect = some _ := rfl
  have hring : Represents (freshBridge 2).ring [] :=
    represents_freshHeader (by decide) _ _ _ _
  exact ⟨_, hrun, histories_apart_of_sameGeneration hring rfl hrun (by decide)⟩

/-- The cursor of generation 1 goes on to read the record of generation 2,
and its drain succeeds. -/
theorem histories_joined_after_reconnect :
    ∃ s, cursorMachine.run (.initial (freshBridge 2) [] []) (readThenReconnect ++
        [.publishLoad (blankRecord 2 HFIOR_RECORD_MOTION), .publishWrite,
          .publishStore, .drain 8, .copy, .advance]) = some s ∧
      ¬ s.HistoriesApart := by
  refine ⟨_, rfl, fun happart => ?_⟩
  have hsecond := ((happart _ _ rfl).1 1 (by decide)).2
  exact absurd hsecond (by decide)

end Hfior
