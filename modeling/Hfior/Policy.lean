import Hfior.Ring

/-!
# The cursor of `src/policy.c`

A cursor is a private read position on a ring.  The ring that the cursor
points to is an argument of every function, since other processes change it
between two calls.

`hfior_cursor_stable_latch` calls `hfior_cursor_drain` in a loop, and other
processes may run between two passes.  `Latch` is the state of the loop,
and `latchNext`, `Latch.extend` and `latchCheck` are its parts.
-/

namespace Hfior

/-- `struct hfior_cursor`, without the pointer to the ring. -/
structure Cursor where
  controlSocketFd : Int32
  generation : UInt64
  localTail : UInt64
  acknowledgedTail : UInt64
deriving DecidableEq, Repr

/-- The cursor that `hfior_cursor_init` builds from the two loaded
positions. -/
def startCursor (controlSocketFd : Int32) (generation : UInt64)
    (beginAtCurrentHead : Bool) (head tail : UInt64) : Cursor where
  controlSocketFd := controlSocketFd
  generation := generation
  localTail := if beginAtCurrentHead then head else tail
  acknowledgedTail := if beginAtCurrentHead then head else tail

/-- The tests of `hfior_cursor_init` on its ring. -/
def cursorRingValid (r : RingHeader) : Bool :=
  r.metadata.magic == HFIOR_MAGIC && r.metadata.abiVersion == HFIOR_ABI_VERSION

/-- `hfior_cursor_init`.  `cursor` says whether the pointer to the cursor is
not `NULL`. -/
def cursorInit (cursor : Bool) (ring : Option RingHeader)
    (controlSocketFd : Int32) (generation : UInt64)
    (beginAtCurrentHead : Bool) : Except Errno Cursor :=
  match ring with
  | none => .error .EINVAL
  | some r =>
    if !cursor || !cursorRingValid r then .error .EINVAL
    else .ok (startCursor controlSocketFd generation beginAtCurrentHead
      r.producer.head r.consumer.tail)

/-- `hfior_cursor_drain`: the copied records and the moved cursor. -/
def cursorDrain (cursor : Option Cursor) (r : RingHeader) (out : Bool)
    (maxRecords : UInt64) : Except Errno (List Record × Cursor) :=
  match cursor with
  | none => .error .EINVAL
  | some c => do
    let (records, localTail) ←
      ringReadSnapshot (some r) (some c.localTail) out maxRecords
    .ok (records, { c with localTail := localTail })

/-- `hfior_cursor_ack`: the cursor, and the message if one was sent. -/
def cursorAck (cursor : Option Cursor) (send : IoResult) :
    Except Errno (Cursor × Option AckMessage) :=
  match cursor with
  | none => .error .EINVAL
  | some c =>
    if c.controlSocketFd < 0 then .error .EINVAL
    else if c.localTail == c.acknowledgedTail then .ok (c, none)
    else match send with
      | .failed errno => .error errno
      | .done => .ok ({ c with acknowledgedTail := c.localTail },
          some ⟨c.generation, c.localTail⟩)

/-! ## The passes of `hfior_cursor_stable_latch` -/

/-- The loop variables of a stable latch.  `total` is the length of `out`. -/
structure Latch where
  maxRecords : UInt64
  maxPasses : UInt32
  pass : UInt32
  out : List Record
deriving DecidableEq, Repr

def Latch.total (l : Latch) : UInt64 := UInt64.ofNat l.out.length

/-- The first pass, or `EINVAL`.  The buffer is not `NULL`. -/
def latchStart (maxRecords : UInt64) (maxPasses : UInt32) :
    Except Errno Latch :=
  if maxPasses == 0 then .error .EINVAL
  else .ok { maxRecords := maxRecords, maxPasses := maxPasses, pass := 0, out := [] }

/-- The condition of the loop. -/
def Latch.continues (l : Latch) : Bool :=
  l.pass < l.maxPasses && l.total < l.maxRecords

/-- The number of records that the drain of this pass may copy. -/
def Latch.room (l : Latch) : UInt64 := l.maxRecords - l.total

/-- The records of one pass. -/
def Latch.extend (l : Latch) (records : List Record) : Latch :=
  { l with out := l.out ++ records }

/-- The test behind a pass: the loop stops when the loaded head is the local
tail, and else the next pass starts. -/
def latchCheck (l : Latch) (head localTail : UInt64) : Latch × Bool :=
  if head == localTail then (l, false)
  else
    let l := { l with pass := l.pass + 1 }
    (l, l.continues)

/-! ## A cursor inside the window -/

section
variable {r : RingHeader} {log : List Record} {c : Cursor}

/-- An ACK that succeeds leaves nothing to acknowledge. -/
theorem cursorAck_acknowledged {send : IoResult} {c' : Cursor}
    {message : Option AckMessage}
    (h : cursorAck (some c) send = .ok (c', message)) :
    c'.localTail = c.localTail ∧ c'.acknowledgedTail = c.localTail := by
  simp only [cursorAck] at h
  split at h
  · cases h
  split at h
  · rename_i heq
    cases h
    exact ⟨rfl, (beq_iff_eq.1 heq).symm⟩
  · cases send with
    | failed errno => cases h
    | done =>
      cases h
      exact ⟨rfl, rfl⟩

theorem cursorAck_generation {send : IoResult} {c' : Cursor}
    {message : Option AckMessage}
    (h : cursorAck (some c) send = .ok (c', message)) :
    c'.generation = c.generation := by
  simp only [cursorAck] at h
  split at h
  · cases h
  split at h
  · cases h
    rfl
  · cases send <;> cases h
    rfl

end

end Hfior
