import Hfior.Cursor.Invariant

/-!
# The stable latch of a cursor

`stableLatch` is `hfior_cursor_stable_latch`.  The producer runs on between
any two accesses of the latch, so a pass is given by a `PassView`: the ring
at each of its accesses.

There are two results, one for each exit of the function.

* `stable_latch_bounded_suffix` is about the return of a count, over a ring
  that a conforming producer fills.  The passes drain slices of the accepted
  records that lie end to end.
* `stable_latch_failure_iff` is about the return of -1, over any sequence of
  rings.  A pass moves the local tail before a later pass can fail, and
  `LaterPassRejected` is the condition under which that happens.
-/

namespace Hfior

/-! ## The function -/

/-- The ring at the accesses of one pass: at the head load of the drain, at
the copy of slot `i`, and at the head load behind the drain. -/
structure PassView where
  loaded : RingHeader
  copied : Nat → RingHeader
  checked : RingHeader

/-- The view of a pass during which the ring does not change. -/
def PassView.still (r : RingHeader) : PassView := ⟨r, fun _ => r, r⟩

/-- `hfior_cursor_drain` into a buffer that is not `NULL`, with other
processes running between its accesses. -/
def drainPass (c : Cursor) (view : PassView) (maxRecords : UInt64) :
    Except Errno (List Record × Cursor) := do
  let available ← snapshotAvailable view.loaded.metadata.capacity
    view.loaded.producer.head c.localTail maxRecords
  let records := (List.range available.toNat).map fun i =>
    copySlot (view.copied i) c.localTail (UInt64.ofNat i)
  .ok (records, { c with localTail := c.localTail + available })

/-- On a ring that does not change, a pass drains what the function
drains. -/
theorem drainPass_still (c : Cursor) (r : RingHeader) (maxRecords : UInt64) :
    drainPass c (.still r) maxRecords = cursorDrain (some c) r true maxRecords := by
  simp only [drainPass, PassView.still, cursorDrain, ringReadSnapshot, Bool.not_true,
    Bool.false_and]
  cases snapshotAvailable r.metadata.capacity r.producer.head c.localTail maxRecords <;> rfl

/-- What a stable latch leaves: its result, the cursor, and the heads that
it has loaded behind its passes.  The heads are a ghost. -/
structure LatchOutcome where
  result : Except Errno (List Record)
  cursor : Option Cursor
  observed : List UInt64

/-- The loop, entered with a pass to do and with `passes` passes left. -/
def latchPasses (views : Nat → PassView) :
    Nat → Latch → Cursor → List UInt64 → LatchOutcome
  | 0, l, c, observed => ⟨.ok l.out, some c, observed⟩
  | passes + 1, l, c, observed =>
    match drainPass c (views l.pass.toNat) l.room with
    | .error e => ⟨.error e, some c, observed⟩
    | .ok (records, c') =>
      let head := (views l.pass.toNat).checked.producer.head
      let next := latchCheck (l.extend records) head c'.localTail
      if next.2 then latchPasses views passes next.1 c' (observed ++ [head])
      else ⟨.ok next.1.out, some c', observed ++ [head]⟩

/-- `hfior_cursor_stable_latch`.  `out` says whether the buffer is not
`NULL`. -/
def stableLatch (views : Nat → PassView) (cursor : Option Cursor) (out : Bool)
    (maxRecords : UInt64) (maxPasses : UInt32) : LatchOutcome :=
  match cursor with
  | none => ⟨.error .EINVAL, none, []⟩
  | some c =>
    if !out && maxRecords != 0 then ⟨.error .EINVAL, some c, []⟩
    else match latchStart maxRecords maxPasses with
      | .error e => ⟨.error e, some c, []⟩
      | .ok l =>
        if l.continues then latchPasses views maxPasses.toNat l c []
        else ⟨.ok l.out, some c, []⟩

/-- A latch continues when it has a pass left and room in the buffer. -/
theorem Latch.continues_iff {l : Latch} :
    l.continues = true ↔ l.pass < l.maxPasses ∧ l.total < l.maxRecords := by
  rw [Latch.continues, Bool.and_eq_true, decide_eq_true_eq, decide_eq_true_eq]

/-- The loop at the start of the next pass. -/
def Latch.next (l : Latch) : Latch := { l with pass := l.pass + 1 }

namespace Latch

variable {l : Latch} {records : List Record}

theorem total_toNat (h : l.out.length ≤ l.maxRecords.toNat) : l.total.toNat = l.out.length :=
  UInt64.toNat_ofNat_of_lt' (Nat.lt_of_le_of_lt h l.maxRecords.toNat_lt)

theorem room_toNat (h : l.out.length ≤ l.maxRecords.toNat) :
    l.room.toNat = l.maxRecords.toNat - l.out.length := by
  rw [room, UInt64.toNat_sub_of_le, total_toNat h]
  rw [UInt64.le_iff_toNat_le, total_toNat h]
  exact h

theorem next_pass (h : l.continues = true) :
    (l.extend records).next.pass.toNat = l.pass.toNat + 1 := by
  have hpass := UInt32.lt_iff_toNat_lt.1 (continues_iff.1 h).1
  have hlt := l.maxPasses.toNat_lt
  show (l.pass + 1).toNat = _
  rw [UInt32.toNat_add, UInt32.toNat_one, Nat.mod_eq_of_lt]
  omega

/-- The condition of the loop behind a pass. -/
theorem next_continues_iff (h : l.continues = true)
    (hlength : (l.out ++ records).length ≤ l.maxRecords.toNat) :
    (l.extend records).next.continues = true ↔
      l.pass.toNat + 1 < l.maxPasses.toNat ∧ (l.out ++ records).length < l.maxRecords.toNat := by
  have htotal : (l.extend records).next.total.toNat = (l.out ++ records).length :=
    total_toNat (l := (l.extend records).next) hlength
  rw [continues_iff, UInt32.lt_iff_toNat_lt, UInt64.lt_iff_toNat_lt, next_pass h, htotal]
  rfl

end Latch

/-- A pass that drains ends the loop at the local tail, or goes on as the
condition of the loop says. -/
theorem latchPasses_of_drained (views : Nat → PassView) (passes : Nat) (l : Latch)
    {c c' : Cursor} (observed : List UInt64) {records : List Record}
    (h : drainPass c (views l.pass.toNat) l.room = .ok (records, c')) :
    latchPasses views (passes + 1) l c observed =
      let head := (views l.pass.toNat).checked.producer.head
      if head ≠ c'.localTail ∧ (l.extend records).next.continues = true then
        latchPasses views passes (l.extend records).next c' (observed ++ [head])
      else ⟨.ok (l.out ++ records), some c', observed ++ [head]⟩ := by
  rw [latchPasses, h]
  simp only [latchCheck]
  by_cases hhead : (views l.pass.toNat).checked.producer.head = c'.localTail
  · simp [hhead, Latch.extend]
  · simp only [beq_iff_eq, ne_eq, hhead, not_false_eq_true, true_and]
    rfl

/-! ## Producers that run on during a call -/

/-- Steps of the other processes lead from one state to the other. -/
def Later (s t : CursorSystem) : Prop :=
  ∃ labels : List CursorLabel,
    (∀ label ∈ labels, label.ofReader = false) ∧ cursorMachine.run s labels = some t

/-- The reader is between two calls and has this cursor. -/
structure Rests (c : Cursor) (s : CursorSystem) : Prop where
  inv : CursorInv s
  reader : s.reader = .ready c .idle

namespace Rests

variable {c : Cursor} {s t : CursorSystem}

theorem later (h : Rests c s) (hst : Later s t) (hlt : t.accepted.length < 2 ^ 64) :
    Rests c t := by
  obtain ⟨labels, hlabels, hrun⟩ := hst
  refine ⟨cursorInv_run h.inv hrun hlt, ?_⟩
  have hreader := h.reader
  clear h hlt
  induction labels generalizing s with
  | nil =>
    cases hrun
    exact hreader
  | cons label labels ih =>
    obtain ⟨r, hr, hrest⟩ := Machine.run_cons.1 hrun
    have hlabel := hlabels label (by simp)
    apply ih (fun l hl => hlabels l (by simp [hl])) hrest
    rw [(cursorStep_cases hr).reader_eq hlabel, hreader]

/-- The tail of the ring is not above the cursor. -/
theorem tail_le (h : Rests c s) : s.tail.toNat ≤ c.localTail.toNat := by
  have hr := h.inv.reader
  rw [h.reader] at hr
  exact hr.1.tail_le.trans hr.2.1

theorem localTail_le (h : Rests c s) : c.localTail.toNat ≤ s.accepted.length := by
  have hr := h.inv.reader
  rw [h.reader] at hr
  exact hr.2.2.1

end Rests

/-- The records accepted before are accepted later. -/
theorem Later.accepted_extends {s t : CursorSystem} (h : Later s t) :
    s.accepted <+: t.accepted := by
  obtain ⟨labels, -, hrun⟩ := h
  exact Machine.run_invariant (fun u => s.accepted <+: u.accepted)
    (fun _ _ _ hu hstep => hu.trans (cursorStep_cases hstep).accepted_extends)
    (List.prefix_refl _) hrun

/-- The states of the system at the accesses of one pass. -/
structure PassStates where
  loaded : CursorSystem
  copied : Nat → CursorSystem
  checked : CursorSystem

/-- What the pass sees of the ring. -/
def PassStates.view (states : PassStates) : PassView where
  loaded := states.loaded.ring
  copied := fun i => (states.copied i).ring
  checked := states.checked.ring

/-- The call starts in `s`, and the other processes take any number of steps
before, between and after the accesses of its passes. -/
structure Passes (s : CursorSystem) (states : Nat → PassStates) : Prop where
  first : Later s (states 0).loaded
  copied : ∀ k i, Later (states k).loaded ((states k).copied i)
  checked : ∀ k i, Later ((states k).copied i) (states k).checked
  next : ∀ k, Later (states k).checked (states (k + 1)).loaded
  bounded : ∀ k, (states k).loaded.accepted.length < 2 ^ 64

/-- The call returns at most `maxRecords` records, the accepted ones from the
local tail on, and moves the local tail behind them.  It ends with a full
buffer, at the head that it has loaded last, or after `maxPasses` passes. -/
structure BoundedSuffix (c : Cursor) (accepted : List Record) (maxRecords : UInt64)
    (maxPasses : UInt32) (o : LatchOutcome) (n : Nat) : Prop where
  result : o.result =
    .ok (slice accepted c.localTail.toNat (c.localTail.toNat + n))
  within : c.localTail.toNat + n ≤ accepted.length
  bounded : n ≤ maxRecords.toNat
  cursor : ∃ localTail : UInt64, localTail.toNat = c.localTail.toNat + n ∧
    o.cursor = some { c with localTail := localTail }
  passes : o.observed.length ≤ maxPasses.toNat
  exit : n = maxRecords.toNat ∨
    o.observed.getLast?.map UInt64.toNat = some (c.localTail.toNat + n) ∨
    o.observed.length = maxPasses.toNat

/-! ## One pass -/

namespace Passes

variable {s : CursorSystem} {states : Nat → PassStates} {c : Cursor} {k : Nat}

theorem rests_copied (h : Passes s states) (hk : Rests c (states k).loaded) (i : Nat) :
    Rests c ((states k).copied i) := by
  have hchecked := (h.checked k i).accepted_extends.length_le
  have hnext := (h.next k).accepted_extends.length_le
  have hlt := h.bounded (k + 1)
  apply hk.later (h.copied k i)
  omega

theorem rests_checked (h : Passes s states) (hk : Rests c (states k).loaded) :
    Rests c (states k).checked := by
  have hnext := (h.next k).accepted_extends.length_le
  have hlt := h.bounded (k + 1)
  apply (h.rests_copied hk 0).later (h.checked k 0)
  omega

theorem rests (h : Passes s states) (hs : Rests c s) (k : Nat) :
    Rests c (states k).loaded := by
  induction k with
  | zero => exact hs.later h.first (h.bounded 0)
  | succ k ih => exact (h.rests_checked ih).later (h.next k) (h.bounded (k + 1))

theorem extends_next (h : Passes s states) (k : Nat) :
    (states k).loaded.accepted <+: (states (k + 1)).loaded.accepted :=
  (h.copied k 0).accepted_extends.trans
    ((h.checked k 0).accepted_extends.trans (h.next k).accepted_extends)

/-- One pass drains the unread records of its first load, up to its limit. -/
theorem drainPass_eq (h : Passes s states) (hs : Rests c s) {c' : Cursor}
    (hlo : c.localTail.toNat ≤ c'.localTail.toNat)
    (hhi : c'.localTail.toNat ≤ (states k).loaded.accepted.length) (room : UInt64) :
    ∃ n : UInt64,
      n.toNat = min room.toNat ((states k).loaded.accepted.length - c'.localTail.toNat) ∧
      (c'.localTail + n).toNat = c'.localTail.toNat + n.toNat ∧
      drainPass c' (states k).view room =
        .ok (slice (states k).loaded.accepted c'.localTail.toNat
          (c'.localTail.toNat + n.toNat), { c' with localTail := c'.localTail + n }) := by
  have hloaded := h.rests hs k
  obtain ⟨n, hn, hcount⟩ := snapshotAvailable_eq hloaded.inv.ring
    (hloaded.tail_le.trans hlo) hhi room
  have hlt := h.bounded k
  refine ⟨n, hcount, ?_, ?_⟩
  · rw [UInt64.toNat_add, Nat.mod_eq_of_lt]
    omega
  -- Every slot is copied from a ring of which it holds the accepted record.
  have hcopied : (List.range n.toNat).map (fun i =>
      copySlot ((states k).copied i).ring c'.localTail (UInt64.ofNat i)) =
      copySlots (states k).loaded.ring c'.localTail n := by
    rw [copySlots]
    apply List.map_congr_left
    intro i hi
    rw [List.mem_range] at hi
    have hof : (UInt64.ofNat i).toNat = i :=
      UInt64.toNat_ofNat_of_lt' (hi.trans n.toNat_lt)
    have hlater := h.rests_copied hloaded i
    have hextends := (h.copied k i).accepted_extends
    have hi' : c'.localTail.toNat + (UInt64.ofNat i).toNat <
        (states k).loaded.accepted.length := by omega
    have hi'' := Nat.lt_of_lt_of_le hi' hextends.length_le
    have hthen : copySlot (states k).loaded.ring c'.localTail (UInt64.ofNat i) = _ :=
      copySlot_eq hloaded.inv.ring (hloaded.tail_le.trans hlo) hi'
    have hnow : copySlot ((states k).copied i).ring c'.localTail (UInt64.ofNat i) = _ :=
      copySlot_eq hlater.inv.ring (hlater.tail_le.trans hlo) hi''
    rw [hthen, hnow]
    exact (hextends.getElem hi').symm
  have hslice : copySlots (states k).loaded.ring c'.localTail n = _ :=
    copySlots_eq hloaded.inv.ring (hloaded.tail_le.trans hlo) (by omega)
  have hn' : snapshotAvailable (states k).view.loaded.metadata.capacity
      (states k).view.loaded.producer.head c'.localTail room = .ok n := hn
  rw [drainPass, hn']
  show Except.ok (_, _) = _
  rw [← hslice]
  exact congrArg (fun records => Except.ok (records, _)) hcopied

end Passes

/-! ## The loop over a ring of accepted records -/

/-- The loop behind `k` passes: what is drained so far are the accepted
records from the local tail of the call on. -/
structure LatchInv (accepted : List Record) (c : Cursor) (maxRecords : UInt64)
    (maxPasses : UInt32) (k : Nat) (l : Latch) (c' : Cursor) (observed : List UInt64) :
    Prop where
  limit : l.maxRecords = maxRecords
  passLimit : l.maxPasses = maxPasses
  observed : observed.length = k
  cursor : c' = { c with localTail := c'.localTail }
  localTail : c'.localTail.toNat = c.localTail.toNat + l.out.length
  length_le : l.out.length ≤ maxRecords.toNat
  within : c'.localTail.toNat ≤ accepted.length
  out : l.out = slice accepted c.localTail.toNat c'.localTail.toNat

namespace LatchInv

variable {accepted accepted' : List Record} {c c' : Cursor} {maxRecords : UInt64}
  {maxPasses : UInt32} {k : Nat} {l : Latch} {observed : List UInt64}

/-- The drain of a pass extends what is drained. -/
theorem drained (h : LatchInv accepted c maxRecords maxPasses k l c' observed)
    (hextends : accepted <+: accepted') {n : UInt64} (head : UInt64)
    (hn : n.toNat = min l.room.toNat (accepted.length - c'.localTail.toNat))
    (hsum : (c'.localTail + n).toNat = c'.localTail.toNat + n.toNat) :
    LatchInv accepted' c maxRecords maxPasses (k + 1)
      (l.extend (slice accepted c'.localTail.toNat (c'.localTail.toNat + n.toNat)))
      { c' with localTail := c'.localTail + n } (observed ++ [head]) := by
  obtain ⟨hrecords, hpasses, hobserved, hcursor, htail, hlength, hwithin, hout⟩ := h
  have hroom := Latch.room_toNat (l := l) (hrecords ▸ hlength)
  rw [hrecords] at hroom
  have hend : c'.localTail.toNat + n.toNat ≤ accepted.length := by omega
  have hslice : (slice accepted c'.localTail.toNat
      (c'.localTail.toNat + n.toNat)).length = n.toNat := by
    rw [slice_length hend]
    omega
  refine ⟨hrecords, hpasses, ?_, ?_, ?_, ?_, ?_, ?_⟩
  · rw [List.length_append, List.length_singleton, hobserved]
  · rw [hcursor]
  · show (c'.localTail + n).toNat = _
    rw [Latch.extend, List.length_append, hslice]
    omega
  · rw [Latch.extend, List.length_append, hslice]
    omega
  · show (c'.localTail + n).toNat ≤ _
    have := hextends.length_le
    omega
  · show l.out ++ _ = slice accepted' _ (c'.localTail + n).toNat
    rw [hsum, slice_of_prefix hextends hend, hout]
    apply slice_append_slice
    · omega
    · omega

/-- The test behind a pass changes no record. -/
theorem next (h : LatchInv accepted c maxRecords maxPasses k l c' observed) :
    LatchInv accepted c maxRecords maxPasses k l.next c' observed :=
  ⟨h.limit, h.passLimit, h.observed, h.cursor, h.localTail, h.length_le, h.within, h.out⟩

/-- The call may return here. -/
theorem suffix (h : LatchInv accepted c maxRecords maxPasses k l c' observed)
    (hk : k ≤ maxPasses.toNat)
    (hexit : l.out.length = maxRecords.toNat ∨ observed.getLast? = some c'.localTail ∨
      k = maxPasses.toNat) :
    BoundedSuffix c accepted maxRecords maxPasses ⟨.ok l.out, some c', observed⟩
      l.out.length where
  result := by
    show Except.ok l.out = _
    rw [← h.localTail, ← h.out]
  within := h.localTail ▸ h.within
  bounded := h.length_le
  cursor := ⟨c'.localTail, h.localTail, congrArg some h.cursor⟩
  passes := by
    show observed.length ≤ _
    rw [h.observed]
    exact hk
  exit := by
    rcases hexit with hfull | hcaught | hlast
    · exact .inl hfull
    · refine .inr (.inl ?_)
      show observed.getLast?.map _ = _
      rw [hcaught, ← h.localTail]
      rfl
    · exact .inr (.inr (h.observed.trans hlast))

end LatchInv

/-- The loop, from any pass on. -/
theorem Passes.latchPasses_suffix {s : CursorSystem} {states : Nat → PassStates}
    {c : Cursor} {maxRecords : UInt64} {maxPasses : UInt32} (h : Passes s states)
    (hs : Rests c s) (passes : Nat) {l : Latch} {c' : Cursor} {observed : List UInt64}
    (hinv : LatchInv (states l.pass.toNat).loaded.accepted c maxRecords maxPasses
      l.pass.toNat l c' observed)
    (hcontinues : l.continues = true) (hleft : l.pass.toNat + passes = maxPasses.toNat)
    {o : LatchOutcome}
    (ho : o = latchPasses (fun k => (states k).view) passes l c' observed) :
    ∃ n, BoundedSuffix c (states o.observed.length).loaded.accepted maxRecords maxPasses
      o n := by
  induction passes generalizing l c' observed with
  | zero =>
    have hpass := UInt32.lt_iff_toNat_lt.1 (Latch.continues_iff.1 hcontinues).1
    rw [hinv.passLimit] at hpass
    omega
  | succ passes ih =>
    have hlo : c.localTail.toNat ≤ c'.localTail.toNat := by
      rw [hinv.localTail]
      exact Nat.le_add_right _ _
    obtain ⟨n, hn, hsum, hdrain⟩ := h.drainPass_eq hs hlo hinv.within l.room
    have hdrained := hinv.drained (h.extends_next _)
      (states l.pass.toNat).view.checked.producer.head hn hsum
    generalize slice (states l.pass.toNat).loaded.accepted _ _ = records at hdrain hdrained
    generalize hc'' : { c' with localTail := c'.localTail + n } = c'' at hdrain hdrained
    have hpass := UInt32.lt_iff_toNat_lt.1 (Latch.continues_iff.1 hcontinues).1
    have hnext : (l.extend records).next.pass.toNat = _ := Latch.next_pass hcontinues
    rw [latchPasses_of_drained (fun k => (states k).view) passes l observed hdrain] at ho
    dsimp only at ho
    split at ho
    · rename_i hgoes
      have hinv' := hdrained.next
      rw [← hnext] at hinv'
      exact ih hinv' hgoes.2 (by omega) ho
    · rename_i hends
      have hlength : o.observed.length = l.pass.toNat + 1 := by
        rw [ho]
        exact hdrained.observed
      rw [hlength, ho]
      refine ⟨_, hdrained.suffix (by omega) ?_⟩
      by_cases hhead : (states l.pass.toNat).view.checked.producer.head = c''.localTail
      · refine .inr (.inl ?_)
        rw [List.getLast?_append, hhead]
        rfl
      -- The head has moved on, so the buffer is full or this was the last pass.
      have hstop : ¬ (l.extend records).next.continues = true := fun h => hends ⟨hhead, h⟩
      have hle : (l.out ++ records).length ≤ maxRecords.toNat := hdrained.length_le
      rw [Latch.next_continues_iff hcontinues (hinv.limit ▸ hle), hinv.limit, hinv.passLimit]
        at hstop
      by_cases hfull : (l.out ++ records).length = maxRecords.toNat
      · exact .inl hfull
      · exact .inr (.inr (by omega))

/-- A latch that has not drained yet. -/
def firstLatch (maxRecords : UInt64) (maxPasses : UInt32) : Latch where
  maxRecords := maxRecords
  maxPasses := maxPasses
  pass := 0
  out := []

theorem firstLatch_continues {maxRecords : UInt64} {maxPasses : UInt32}
    (hrecords : maxRecords ≠ 0) (hmax : maxPasses ≠ 0) :
    (firstLatch maxRecords maxPasses).continues = true :=
  Latch.continues_iff.2 ⟨UInt32.pos_iff_ne_zero.2 hmax, UInt64.pos_iff_ne_zero.2 hrecords⟩

/-- With good arguments, the latch is its loop. -/
theorem stableLatch_eq (views : Nat → PassView) (c : Cursor) {out : Bool}
    {maxRecords : UInt64} {maxPasses : UInt32} (hout : out = true ∨ maxRecords = 0)
    (hmax : maxPasses ≠ 0) :
    stableLatch views (some c) out maxRecords maxPasses =
      if maxRecords ≠ 0 then
        latchPasses views maxPasses.toNat (firstLatch maxRecords maxPasses) c []
      else ⟨.ok [], some c, []⟩ := by
  have hargs : (!out && maxRecords != 0) = false := by
    rcases hout with rfl | rfl <;> simp
  simp only [stableLatch, hargs, Bool.false_eq_true, if_false, latchStart, beq_iff_eq, hmax]
  by_cases hrecords : maxRecords = 0
  · simp [Latch.continues, hrecords]
  · rw [if_pos hrecords]
    exact if_pos (firstLatch_continues hrecords hmax)

theorem latchInv_first (accepted : List Record) {c : Cursor} (maxRecords : UInt64)
    (maxPasses : UInt32) (h : c.localTail.toNat ≤ accepted.length) :
    LatchInv accepted c maxRecords maxPasses 0 (firstLatch maxRecords maxPasses) c [] :=
  ⟨rfl, rfl, rfl, rfl, rfl, Nat.zero_le _, h, slice_self.symm⟩

/-- A drain of a cursor at rest. -/
theorem Rests.cursorDrain_eq {c : Cursor} {s : CursorSystem} (hs : Rests c s)
    (maxRecords : UInt64) {out : Bool} (hout : out = true ∨ maxRecords = 0) :
    ∃ n : UInt64, n.toNat = min maxRecords.toNat (s.accepted.length - c.localTail.toNat) ∧
      (c.localTail + n).toNat = c.localTail.toNat + n.toNat ∧
      cursorDrain (some c) s.ring out maxRecords =
        .ok (slice s.accepted c.localTail.toNat (c.localTail.toNat + n.toNat),
          { c with localTail := c.localTail + n }) := by
  have hargs : ∀ r tail, ringReadSnapshot (some r) (some tail) out maxRecords =
      ringReadSnapshot (some r) (some tail) true maxRecords := by
    intro r tail
    rcases hout with rfl | rfl
    · rfl
    · simp [ringReadSnapshot]
  obtain ⟨n, hn, hsum, hread⟩ := ringReadSnapshot_eq hs.inv.ring hs.tail_le hs.localTail_le
    maxRecords
  have hread' : ringReadSnapshot (some s.ring) (some c.localTail) true maxRecords = _ := hread
  refine ⟨n, hn, hsum, ?_⟩
  rw [cursorDrain, hargs, hread']
  rfl

/-- Without a publication during the call, the first pass ends the loop. -/
theorem Passes.latchPasses_still {s : CursorSystem} {states : Nat → PassStates} {c c' : Cursor}
    (h : Passes s states) (hs : Rests c s)
    (hstill : ∀ k, (states k).loaded.accepted = s.accepted) (maxRecords : UInt64)
    (maxPasses : UInt32) (passes : Nat) {records : List Record}
    (hdrain : cursorDrain (some c) s.ring true maxRecords = .ok (records, c')) :
    latchPasses (fun k => (states k).view) (passes + 1) (firstLatch maxRecords maxPasses) c []
      = ⟨.ok records, some c', [(states 0).checked.head]⟩ := by
  obtain ⟨n, hn, hsum, hread⟩ := hs.cursorDrain_eq maxRecords (.inl rfl)
  obtain ⟨rfl, rfl⟩ := Prod.mk.inj (Except.ok.inj (hread.symm.trans hdrain))
  have hroom : (firstLatch maxRecords maxPasses).room = maxRecords := UInt64.sub_zero _
  have hwithin : c.localTail.toNat ≤ (states 0).loaded.accepted.length :=
    hstill 0 ▸ hs.localTail_le
  obtain ⟨n', hn', -, hpass⟩ := h.drainPass_eq hs (Nat.le_refl _) hwithin maxRecords
  obtain rfl : n' = n := by
    rw [← UInt64.toNat_inj, hn, hn', hstill 0]
  rw [hstill 0, ← hroom] at hpass
  have hfirst : drainPass c ((fun k => (states k).view)
      (firstLatch maxRecords maxPasses).pass.toNat) (firstLatch maxRecords maxPasses).room =
        .ok (slice s.accepted c.localTail.toNat (c.localTail.toNat + n'.toNat),
          { c with localTail := c.localTail + n' }) := hpass
  rw [latchPasses_of_drained (fun k => (states k).view) passes
    (firstLatch maxRecords maxPasses) [] hfirst]
  apply if_neg
  rintro ⟨hhead, hcontinues⟩
  apply hhead
  -- The buffer is not full, so the pass has drained up to the head.
  have hrecords : (slice s.accepted c.localTail.toNat (c.localTail.toNat + n'.toNat)).length =
      n'.toNat := by
    have hle := hs.localTail_le
    rw [slice_length]
    · omega
    · omega
  have htotal : (UInt64.ofNat ([] ++ slice s.accepted c.localTail.toNat
      (c.localTail.toNat + n'.toNat)).length).toNat < maxRecords.toNat :=
    UInt64.lt_iff_toNat_lt.1 (Latch.continues_iff.1 hcontinues).2
  rw [List.nil_append, hrecords, UInt64.toNat_ofNat_of_lt' n'.toNat_lt] at htotal
  have hhead : (states 0).checked.head.toNat = (states 0).checked.accepted.length :=
    (h.rests_checked (h.rests hs 0)).inv.ring.head
  have hlo := (h.copied 0 0).accepted_extends.trans (h.checked 0 0).accepted_extends
  have hhi := (h.next 0).accepted_extends.length_le
  have hlo := hlo.length_le
  rw [hstill 0] at hlo
  rw [hstill 1] at hhi
  have hle := hs.localTail_le
  show (states 0).checked.head = c.localTail + n'
  rw [← UInt64.toNat_inj, hsum]
  omega

/-- From any reachable state of the cursor and a conforming producer, with
any steps of the producer around the accesses of the passes, the latch
returns the next accepted records, within its two bounds.  Without a
publication during the call it returns what one drain returns. -/
theorem stable_latch_bounded_suffix {b : Bridge} {log : List Record}
    {generations : List UInt64} (h : Represents b.ring log)
    (hlength : generations.length = log.length) {labels : List CursorLabel}
    {s : CursorSystem} {c : Cursor}
    (hrun : cursorMachine.run (CursorSystem.initial b log generations) labels = some s)
    (hreader : s.reader = .ready c .idle) {states : Nat → PassStates} (hs : Passes s states)
    {out : Bool} {maxRecords : UInt64} {maxPasses : UInt32}
    (hout : out = true ∨ maxRecords = 0) (hmax : 1 ≤ maxPasses) :
    let o := stableLatch (fun k => (states k).view) (some c) out maxRecords maxPasses
    (∃ n, BoundedSuffix c (states o.observed.length).loaded.accepted maxRecords maxPasses o n) ∧
    ((∀ k, (states k).loaded.accepted = s.accepted) →
      ∃ records c', cursorDrain (some c) s.ring out maxRecords = .ok (records, c') ∧
        o.result = .ok records ∧ o.cursor = some c') := by
  have hlt : s.accepted.length < 2 ^ 64 :=
    Nat.lt_of_le_of_lt hs.first.accepted_extends.length_le (hs.bounded 0)
  have hrests : Rests c s := ⟨cursorInv_run (cursorInv_initial h hlength) hrun hlt, hreader⟩
  have hpos : maxPasses.toNat ≠ 0 := by
    have := UInt32.le_iff_toNat_le.1 hmax
    rw [UInt32.toNat_one] at this
    omega
  have hne : maxPasses ≠ 0 := fun h0 => hpos (by rw [h0]; rfl)
  have hwithin : c.localTail.toNat ≤ (states 0).loaded.accepted.length :=
    hrests.localTail_le.trans hs.first.accepted_extends.length_le
  have hfirst : LatchInv (states (firstLatch maxRecords maxPasses).pass.toNat).loaded.accepted
      c maxRecords maxPasses (firstLatch maxRecords maxPasses).pass.toNat _ c [] :=
    latchInv_first _ maxRecords maxPasses hwithin
  obtain ⟨n, hn, hsum, hdrain⟩ := hrests.cursorDrain_eq maxRecords hout
  intro o
  have ho : o = _ := stableLatch_eq _ c hout hne
  by_cases hrecords : maxRecords = 0
  · rw [if_neg (not_not_intro hrecords)] at ho
    rw [ho]
    constructor
    · exact ⟨_, hfirst.suffix (Nat.zero_le _) (.inl (by rw [hrecords]; rfl))⟩
    · intro _
      have hzero : n = 0 := by
        rw [← UInt64.toNat_inj, hn, hrecords]
        exact Nat.zero_min _
      refine ⟨_, _, hdrain, ?_, ?_⟩
      · rw [hzero]
        exact congrArg Except.ok slice_self.symm
      · rw [hzero, UInt64.add_zero]
  · rw [if_pos hrecords] at ho
    obtain ⟨passes, hpasses⟩ := Nat.exists_eq_succ_of_ne_zero hpos
    constructor
    · exact hs.latchPasses_suffix hrests maxPasses.toNat hfirst
        (firstLatch_continues hrecords hne) (Nat.zero_add _) ho
    · intro hstill
      have hout' : out = true := hout.resolve_right hrecords
      rw [hout'] at hdrain ⊢
      rw [hpasses, hs.latchPasses_still hrests hstill maxRecords maxPasses passes hdrain] at ho
      refine ⟨_, _, hdrain, ?_, ?_⟩
      · rw [ho]
      · rw [ho]

/-- Calls in which the other processes run between the first drain and the
head load behind it. -/
def PassStates.between (s t : CursorSystem) : Nat → PassStates
  | 0 => ⟨s, fun _ => s, t⟩
  | _ + 1 => ⟨t, fun _ => t, t⟩

theorem Later.refl (s : CursorSystem) : Later s s := ⟨[], by simp, rfl⟩

theorem Later.passes {s t : CursorSystem} (h : Later s t)
    (hlt : t.accepted.length < 2 ^ 64) : Passes s (PassStates.between s t) where
  first := .refl s
  copied k _ := by cases k <;> exact .refl _
  checked k _ := by
    cases k with
    | zero => exact h
    | succ k => exact .refl t
  next k := by cases k <;> exact .refl t
  bounded k := by
    cases k with
    | zero => exact Nat.lt_of_le_of_lt h.accepted_extends.length_le hlt
    | succ k => exact hlt

/-- One record is accepted before the cursor is made. -/
def latchSetup : List CursorLabel :=
  [.publishLoad (blankRecord 1 HFIOR_RECORD_MOTION), .publishWrite, .publishStore,
    .initHead, .initTail 5 1 false]

/-- And one during the call. -/
def latePublication : List CursorLabel :=
  [.publishLoad (blankRecord 2 HFIOR_RECORD_MOTION), .publishWrite, .publishStore]

theorem stable_latch_bounded_suffix_late :
    ∃ s t c, cursorMachine.run (.initial (freshBridge 4) [] []) latchSetup = some s ∧
      cursorMachine.run s latePublication = some t ∧ s.reader = .ready c .idle ∧
      let o := stableLatch (fun k => (PassStates.between s t k).view) (some c) true 16 3
      (∃ n, BoundedSuffix c (PassStates.between s t o.observed.length).loaded.accepted 16 3
        o n) ∧
      ((∀ k, (PassStates.between s t k).loaded.accepted = s.accepted) →
        ∃ records c', cursorDrain (some c) s.ring true 16 = .ok (records, c') ∧
          o.result = .ok records ∧ o.cursor = some c') := by
  have hring : Represents (freshBridge 4).ring [] :=
    represents_freshHeader (by decide) _ _ _ _
  have hrun : cursorMachine.run (.initial (freshBridge 4) [] []) latchSetup = some _ := rfl
  refine ⟨_, _, _, hrun, rfl, rfl, ?_⟩
  apply stable_latch_bounded_suffix hring rfl hrun rfl _ (.inl rfl) (by decide)
  apply Later.passes ⟨latePublication, by decide, rfl⟩
  decide

/-! ## The loop over any sequence of rings -/

section
variable (views : Nat → PassView)

/-- The local tail before pass `k`, if every pass before has drained up to
the head that it has loaded. -/
def passTail (localTail : UInt64) : Nat → UInt64
  | 0 => localTail
  | k + 1 => (views k).loaded.producer.head

/-- The bound checks of pass `k` succeed behind such passes. -/
def Admitted (localTail : UInt64) (k : Nat) : Prop :=
  let head := (views k).loaded.producer.head
  passTail views localTail k ≤ head ∧
    head - passTail views localTail k ≤ (views k).loaded.metadata.capacity.toUInt64

/-- Pass `k` succeeds, it leaves room in the buffer, and the head that it
loads behind its drain has moved on. -/
def GoesOn (localTail maxRecords : UInt64) (k : Nat) : Prop :=
  Admitted views localTail k ∧ (views k).loaded.producer.head - localTail < maxRecords ∧
    (views k).checked.producer.head ≠ (views k).loaded.producer.head

/-- A pass behind one that has moved the local tail loads an impossible
head. -/
def LaterPassRejected (localTail maxRecords : UInt64) (maxPasses : UInt32) : Prop :=
  ∃ k < maxPasses.toNat, (∀ i < k, GoesOn views localTail maxRecords i) ∧
    ¬ Admitted views localTail k ∧ passTail views localTail k ≠ localTail

/-- The same, from pass `k` on with a number of passes left. -/
def RejectedFrom (localTail maxRecords : UInt64) : Nat → Nat → Prop
  | 0, _ => False
  | passes + 1, k =>
    (¬ Admitted views localTail k ∧ passTail views localTail k ≠ localTail) ∨
      (GoesOn views localTail maxRecords k ∧
        RejectedFrom localTail maxRecords passes (k + 1))

end

section
variable {views : Nat → PassView} {c c' : Cursor} {localTail maxRecords : UInt64}
  {maxPasses : UInt32} {k : Nat}

theorem rejectedFrom_iff (passes : Nat) :
    RejectedFrom views localTail maxRecords passes k ↔
      ∃ j < passes, (∀ i < j, GoesOn views localTail maxRecords (k + i)) ∧
        ¬ Admitted views localTail (k + j) ∧ passTail views localTail (k + j) ≠ localTail := by
  induction passes generalizing k with
  | zero => simp [RejectedFrom]
  | succ passes ih =>
    rw [RejectedFrom, ih]
    constructor
    · rintro (⟨hnot, hne⟩ | ⟨hgoes, j, hj, hall, hnot, hne⟩)
      · exact ⟨0, Nat.succ_pos _, fun i hi => absurd hi (Nat.not_lt_zero i), hnot, hne⟩
      · rw [Nat.add_right_comm] at hnot hne
        refine ⟨j + 1, by omega, ?_, hnot, hne⟩
        intro i hi
        cases i with
        | zero => exact hgoes
        | succ i =>
          have := hall i (by omega)
          rwa [Nat.add_right_comm] at this
    · rintro ⟨j, hj, hall, hnot, hne⟩
      cases j with
      | zero => exact .inl ⟨hnot, hne⟩
      | succ j =>
        refine .inr ⟨hall 0 (by omega), j, by omega, ?_, ?_, ?_⟩
        · intro i hi
          rw [Nat.add_right_comm]
          exact hall (i + 1) (by omega)
        · rwa [Nat.add_right_comm]
        · rwa [Nat.add_right_comm]

theorem laterPassRejected_iff :
    LaterPassRejected views localTail maxRecords maxPasses ↔
      RejectedFrom views localTail maxRecords maxPasses.toNat 0 := by
  rw [rejectedFrom_iff]
  simp only [Nat.zero_add, LaterPassRejected]

/-- A drain whose bound checks fail. -/
theorem drainPass_rejected {view : PassView} (room : UInt64)
    (h : ¬ (c.localTail ≤ view.loaded.producer.head ∧ view.loaded.producer.head - c.localTail ≤
      view.loaded.metadata.capacity.toUInt64)) :
    drainPass c view room = .error .EOVERFLOW := by
  rw [drainPass, snapshotAvailable_rejected h]
  rfl

/-- A drain whose bound checks succeed. -/
theorem drainPass_admitted {view : PassView} (room : UInt64)
    (h : c.localTail ≤ view.loaded.producer.head ∧ view.loaded.producer.head - c.localTail ≤
      view.loaded.metadata.capacity.toUInt64) :
    ∃ (n : UInt64) (records : List Record),
      drainPass c view room = .ok (records, { c with localTail := c.localTail + n }) ∧
      records.length = n.toNat ∧
      n.toNat = min room.toNat
        (view.loaded.producer.head.toNat - c.localTail.toNat) := by
  obtain ⟨n, hn, hcount⟩ := snapshotAvailable_admitted h room
  refine ⟨n, (List.range n.toNat).map fun i =>
    copySlot (view.copied i) c.localTail (UInt64.ofNat i), ?_, ?_, hcount⟩
  · rw [drainPass, hn]
    rfl
  · rw [List.length_map, List.length_range]

/-- The loop behind passes that have all drained up to the head that they
have loaded. -/
structure PassInv (views : Nat → PassView) (localTail maxRecords : UInt64)
    (maxPasses : UInt32) (l : Latch) (c' : Cursor) : Prop where
  limit : l.maxRecords = maxRecords
  passLimit : l.maxPasses = maxPasses
  tail : c'.localTail = passTail views localTail l.pass.toNat
  le : localTail.toNat ≤ c'.localTail.toNat
  length : l.out.length = c'.localTail.toNat - localTail.toNat
  length_le : l.out.length ≤ maxRecords.toNat

/-- A pass whose bound checks succeed ends the loop without an error, or it
drains up to the head that it has loaded. -/
theorem PassInv.pass {l : Latch} (h : PassInv views localTail maxRecords maxPasses l c')
    (hcontinues : l.continues = true) (hadmitted : Admitted views localTail l.pass.toNat) :
    ∃ records c'', drainPass c' (views l.pass.toNat) l.room = .ok (records, c'') ∧
      (l.out ++ records).length ≤ l.maxRecords.toNat ∧
      (GoesOn views localTail maxRecords l.pass.toNat ↔
        (views l.pass.toNat).checked.producer.head ≠ c''.localTail ∧
          (l.out ++ records).length < l.maxRecords.toNat) ∧
      (GoesOn views localTail maxRecords l.pass.toNat →
        PassInv views localTail maxRecords maxPasses (l.extend records).next c'') := by
  obtain ⟨hlimit, hpassLimit, htail, hle, hlength, hlengthLe⟩ := h
  have hchecks := hadmitted
  rw [Admitted, ← htail] at hchecks
  obtain ⟨n, records, hdrain, hrecords, hn⟩ := drainPass_admitted l.room hchecks
  have hroom := Latch.room_toNat (l := l) (hlimit ▸ hlengthLe)
  rw [hlimit] at hroom
  have hhead := UInt64.le_iff_toNat_le.1 hchecks.1
  have hlt := (views l.pass.toNat).loaded.producer.head.toNat_lt
  have hsum : (c'.localTail + n).toNat = c'.localTail.toNat + n.toNat := by
    rw [UInt64.toNat_add, Nat.mod_eq_of_lt]
    omega
  have hout : (l.out ++ records).length = l.out.length + n.toNat := by
    rw [List.length_append, hrecords]
  have hbelow : (views l.pass.toNat).loaded.producer.head - localTail < maxRecords ↔
      (views l.pass.toNat).loaded.producer.head.toNat - localTail.toNat <
        maxRecords.toNat := by
    rw [UInt64.lt_iff_toNat_lt, UInt64.toNat_sub_of_le]
    rw [UInt64.le_iff_toNat_le]
    omega
  -- Room is left in the buffer exactly when the pass has drained up to its head.
  have hreached : (l.out ++ records).length < maxRecords.toNat →
      c'.localTail + n = (views l.pass.toNat).loaded.producer.head := by
    intro hspare
    rw [← UInt64.toNat_inj, hsum]
    omega
  have hspare : (views l.pass.toNat).loaded.producer.head - localTail < maxRecords ↔
      (l.out ++ records).length < maxRecords.toNat := by
    rw [hbelow]
    omega
  refine ⟨records, _, hdrain, by rw [hlimit]; omega, ?_, ?_⟩
  · rw [hlimit, ← hspare, GoesOn, and_iff_right hadmitted]
    constructor
    · rintro ⟨hlt, hmoved⟩
      rw [← hreached (hspare.1 hlt)] at hmoved
      exact ⟨hmoved, hlt⟩
    · rintro ⟨hmoved, hlt⟩
      refine ⟨hlt, ?_⟩
      rw [← hreached (hspare.1 hlt)]
      exact hmoved
  · rintro ⟨-, hlt, -⟩
    refine ⟨hlimit, hpassLimit, ?_, ?_, ?_, ?_⟩
    · rw [Latch.next_pass hcontinues]
      exact hreached (hspare.1 hlt)
    · show localTail.toNat ≤ (c'.localTail + n).toNat
      omega
    · show (l.out ++ records).length = (c'.localTail + n).toNat - _
      omega
    · show (l.out ++ records).length ≤ _
      omega

/-- The loop, from any pass on: it fails with a local tail that has moved
exactly when a pass behind one that goes on is rejected. -/
theorem latchPasses_failure_iff (passes : Nat) {l : Latch} {observed : List UInt64}
    (hinv : PassInv views localTail maxRecords maxPasses l c')
    (hcontinues : l.continues = true) (hleft : l.pass.toNat + passes = maxPasses.toNat)
    {o : LatchOutcome} (ho : o = latchPasses views passes l c' observed) :
    ((∃ e, o.result = .error e) ∧ o.cursor.map Cursor.localTail ≠ some localTail) ↔
      RejectedFrom views localTail maxRecords passes l.pass.toNat := by
  induction passes generalizing l c' observed with
  | zero =>
    have hpass := UInt32.lt_iff_toNat_lt.1 (Latch.continues_iff.1 hcontinues).1
    rw [hinv.passLimit] at hpass
    omega
  | succ passes ih =>
    rw [RejectedFrom]
    by_cases hadmitted : Admitted views localTail l.pass.toNat
    · obtain ⟨records, c'', hdrain, hlength, hgoes, hnext⟩ := hinv.pass hcontinues hadmitted
      rw [latchPasses_of_drained views passes l observed hdrain] at ho
      have hcontinues' := Latch.next_continues_iff hcontinues hlength
      rw [hinv.passLimit] at hcontinues'
      have hfirst : ¬ (¬ Admitted views localTail l.pass.toNat ∧
          passTail views localTail l.pass.toNat ≠ localTail) := fun h => h.1 hadmitted
      rw [or_iff_right hfirst]
      dsimp only at ho
      split at ho
      · rename_i hcond
        have hgoesOn := hgoes.2 ⟨hcond.1, (hcontinues'.1 hcond.2).2⟩
        have hpass : (l.extend records).next.pass.toNat = _ := Latch.next_pass hcontinues
        rw [and_iff_right hgoesOn, ← hpass]
        exact ih (hnext hgoesOn) hcond.2 (by omega) ho
      · rename_i hcond
        have hends : ¬ (GoesOn views localTail maxRecords l.pass.toNat ∧
            RejectedFrom views localTail maxRecords passes (l.pass.toNat + 1)) := by
          rintro ⟨hgoesOn, hlater⟩
          obtain ⟨hmoved, hroom⟩ := hgoes.1 hgoesOn
          apply hcond ⟨hmoved, hcontinues'.2 ⟨?_, hroom⟩⟩
          cases passes with
          | zero => exact hlater.elim
          | succ passes => omega
        rw [ho, iff_false_right hends]
        rintro ⟨⟨e, he⟩, -⟩
        cases he
    · have hchecks := hadmitted
      rw [Admitted, ← hinv.tail] at hchecks
      rw [latchPasses, drainPass_rejected l.room hchecks] at ho
      rw [ho]
      simp [hadmitted, GoesOn, hinv.tail]

theorem passInv_first (views : Nat → PassView) (c : Cursor) (maxRecords : UInt64)
    (maxPasses : UInt32) :
    PassInv views c.localTail maxRecords maxPasses (firstLatch maxRecords maxPasses) c :=
  ⟨rfl, rfl, rfl, Nat.le_refl _, (Nat.sub_self _).symm, Nat.zero_le _⟩

/-- A latch with an empty buffer or without a buffer drains nothing. -/
theorem stableLatch_idle (views : Nat → PassView) (c : Cursor) {out : Bool}
    {maxRecords : UInt64} {maxPasses : UInt32}
    (h : out = false ∨ maxRecords = 0 ∨ maxPasses = 0) :
    (stableLatch views (some c) out maxRecords maxPasses).cursor = some c := by
  simp only [stableLatch]
  by_cases hargs : (!out && maxRecords != 0) = true
  · rw [if_pos hargs]
  · rw [if_neg hargs, latchStart]
    by_cases hmax : maxPasses = 0
    · simp [hmax]
    · have hrecords : maxRecords = 0 := by
        rcases h with rfl | hrecords | hmax'
        · simpa using hargs
        · exact hrecords
        · exact absurd hmax' hmax
      simp [hmax, hrecords, Latch.continues]

end

/-- What a failed latch should leave: the local tail of before the call. -/
def FailureKeepsTail (cursor : Option Cursor) (o : LatchOutcome) : Prop :=
  ∀ e, o.result = .error e → o.cursor.map Cursor.localTail = cursor.map Cursor.localTail

/-- For every cursor, every pair of limits and every sequence of rings: a
latch that fails leaves the local tail exactly when no pass is rejected
behind one that has moved it. -/
theorem stable_latch_failure_iff (views : Nat → PassView) (cursor : Option Cursor)
    (out : Bool) (maxRecords : UInt64) (maxPasses : UInt32) :
    FailureKeepsTail cursor (stableLatch views cursor out maxRecords maxPasses) ↔
      ¬ (out = true ∧ ∃ c, cursor = some c ∧
        LaterPassRejected views c.localTail maxRecords maxPasses) := by
  cases cursor with
  | none => simp [FailureKeepsTail, stableLatch]
  | some c =>
    by_cases hidle : out = false ∨ maxRecords = 0 ∨ maxPasses = 0
    · have hkeeps : FailureKeepsTail (some c)
          (stableLatch views (some c) out maxRecords maxPasses) := by
        intro e _
        rw [stableLatch_idle views c hidle]
      rw [iff_true_left hkeeps]
      rintro ⟨rfl, c', hc, k, hk, hgoes, hnot, hne⟩
      obtain rfl := Option.some.inj hc
      have hpos : 0 < k := by
        rcases Nat.eq_zero_or_pos k with rfl | hpos
        · exact absurd rfl hne
        · exact hpos
      rcases hidle with hout | rfl | rfl
      · cases hout
      · exact UInt64.not_lt_zero (hgoes 0 hpos).2.1
      · exact Nat.not_lt_zero k hk
    · rw [not_or, not_or, Bool.not_eq_false] at hidle
      obtain ⟨rfl, hrecords, hmax⟩ := hidle
      have heq : stableLatch views (some c) true maxRecords maxPasses = _ :=
        stableLatch_eq views c (.inl rfl) hmax
      rw [if_pos hrecords] at heq
      have hiff := latchPasses_failure_iff maxPasses.toNat
        (passInv_first views c maxRecords maxPasses) (firstLatch_continues hrecords hmax)
        (Nat.zero_add _) heq
      constructor
      · rintro hkeeps ⟨-, c', hc, hrejected⟩
        obtain rfl := Option.some.inj hc
        obtain ⟨⟨e, he⟩, hne⟩ := hiff.2 (laterPassRejected_iff.1 hrejected)
        exact hne (hkeeps e he)
      · intro hnot e he
        by_contra hne
        apply hnot
        exact ⟨rfl, c, rfl, laterPassRejected_iff.2 (hiff.1 ⟨⟨e, he⟩, hne⟩)⟩

/-- A ring of four slots with one record, whose head is spoiled behind the
first drain. -/
def spoiledViews : Nat → PassView :=
  let ring := (ringPublish (freshBridge 4).ring (blankRecord 1 HFIOR_RECORD_MOTION)).2
  let spoiled := { ring with producer.head := 100 }
  fun k => if k = 0 then ⟨ring, fun _ => ring, spoiled⟩ else .still spoiled

theorem spoiled_latch_consumes : ¬ ∀ views cursor out maxRecords maxPasses,
    FailureKeepsTail cursor (stableLatch views cursor out maxRecords maxPasses) := by
  intro h
  have hkeeps := h spoiledViews (some ⟨5, 1, 0, 0⟩) true 16 3 .EOVERFLOW
  have hresult : (stableLatch spoiledViews (some ⟨5, 1, 0, 0⟩) true 16 3).result =
      .error .EOVERFLOW := rfl
  have hcursor := hkeeps hresult
  revert hcursor
  decide

end Hfior
