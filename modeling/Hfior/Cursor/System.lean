import Hfior.Bridge.Control
import Hfior.Policy

/-!
# One producer, one cursor, step by step

The bridge publishes into the ring while one cursor reads it, and the ACKs
of the cursor travel to the bridge over a FIFO channel.  Every access that
the other side can see is a step of its own:

* the producer loads the tail, writes the slot, stores the head;
* the reader loads the head, copies slots one by one, advances its tail;
* an ACK is sent in one step and delivered in a later one.

The bridge may lose its device and reconnect between any two steps.

The fields `accepted`, `generations`, `start`, `returned`, `moved` and
`reads` are ghosts: no step of the program reads them.
-/

namespace Hfior

/-- Where the producer is in `hfior_ring_publish`. -/
inductive ProducerPc where
  | idle
  /-- The head and the tail are loaded. -/
  | loaded (record : Record) (head tail : UInt64)
  /-- The slot is written, and the head is not stored. -/
  | wrote (record : Record) (head : UInt64)
deriving DecidableEq

/-- Where the reader is between two calls, or in `hfior_cursor_drain`.  The
latch is the stable latch that the drain is a pass of, if any. -/
inductive ReadPhase where
  | idle
  /-- `available` slots are to be copied, and `copied` are. -/
  | copying (available : UInt64) (copied : List Record) (latch : Option Latch)
  /-- A pass of a stable latch is about to drain. -/
  | latchPass (latch : Latch)
  /-- A pass of a stable latch is about to load the head again. -/
  | latchCheck (latch : Latch)
deriving DecidableEq

/-- The reader: not yet in `hfior_cursor_init`, between its two loads, or
with a cursor. -/
inductive Reader where
  | absent
  | headLoaded (head : UInt64)
  | ready (cursor : Cursor) (phase : ReadPhase)
deriving DecidableEq

/-- A call of `hfior_cursor_drain` whose result is decided: whether the
generation had moved on since `hfior_cursor_init`, and whether the call
succeeds. -/
structure ReadOutcome where
  afterMove : Bool
  success : Bool
deriving DecidableEq

structure CursorSystem where
  bridge : Bridge
  producer : ProducerPc
  reader : Reader
  /-- The ACKs in flight, oldest first. -/
  channel : List AckMessage
  /-- The accepted records, record `p` at position `p`. -/
  accepted : List Record
  /-- The generation of the ring when each record was accepted. -/
  generations : List UInt64
  /-- The first position of the cursor. -/
  start : Nat
  /-- All records returned by `hfior_cursor_drain`. -/
  returned : List Record
  /-- The generation has changed since the cursor was made. -/
  moved : Bool
  reads : List ReadOutcome

namespace CursorSystem

def ring (s : CursorSystem) : RingHeader := s.bridge.ring

def head (s : CursorSystem) : UInt64 := s.bridge.ring.producer.head

def tail (s : CursorSystem) : UInt64 := s.bridge.ring.consumer.tail

def capacity (s : CursorSystem) : UInt32 := s.bridge.ring.metadata.capacity

/-- A ring that holds `log`, before the cursor is made.  The records of
`log` were accepted under the generations `generations`. -/
def initial (b : Bridge) (log : List Record) (generations : List UInt64) :
    CursorSystem where
  bridge := b
  producer := .idle
  reader := .absent
  channel := []
  accepted := log
  generations := generations
  start := 0
  returned := []
  moved := false
  reads := []

/-! ## The producer -/

/-- `hfior_ring_publish` loads the two positions. -/
def publishLoad (s : CursorSystem) (record : Record) : CursorSystem :=
  { s with producer := .loaded record s.head s.tail }

/-- The full branch. -/
def publishDrop (s : CursorSystem) : CursorSystem :=
  { s with
    bridge := { s.bridge with ring := dropNewest s.bridge.ring }
    producer := .idle }

/-- The write of the slot. -/
def publishWrite (s : CursorSystem) (record : Record) (head : UInt64) :
    CursorSystem :=
  { s with
    bridge := { s.bridge with ring := writeSlot s.bridge.ring head record }
    producer := .wrote record head }

/-- The store of the head, which makes the record accepted. -/
def publishStore (s : CursorSystem) (record : Record) (head : UInt64) :
    CursorSystem :=
  { s with
    bridge := { s.bridge with ring := storeHead s.bridge.ring head record }
    producer := .idle
    accepted := s.accepted ++ [record]
    generations := s.generations ++ [s.bridge.ring.producer.generation] }

/-! ## The reader -/

/-- The second load of `hfior_cursor_init`, and the cursor from both. -/
def makeCursor (s : CursorSystem) (fd : Int32) (generation : UInt64)
    (beginAtCurrentHead : Bool) (head : UInt64) : CursorSystem :=
  let cursor := startCursor fd generation beginAtCurrentHead head s.tail
  { s with
    reader := .ready cursor .idle
    start := cursor.localTail.toNat
    moved := false }

/-- The head load and the bound checks of one drain. -/
def startRead (s : CursorSystem) (c : Cursor) (maxRecords : UInt64)
    (latch : Option Latch) : CursorSystem :=
  match snapshotAvailable s.capacity s.head c.localTail maxRecords with
  | .error _ =>
    { s with reader := .ready c .idle, reads := s.reads ++ [⟨s.moved, false⟩] }
  | .ok available =>
    { s with
      reader := .ready c (.copying available [] latch)
      reads := s.reads ++ [⟨s.moved, true⟩] }

/-- The copy of the next slot. -/
def copyNext (s : CursorSystem) (c : Cursor) (available : UInt64)
    (copied : List Record) (latch : Option Latch) : CursorSystem :=
  { s with reader := .ready c (.copying available
      (copied ++ [copySlot s.ring c.localTail (UInt64.ofNat copied.length)]) latch) }

/-- The end of a drain: the local tail moves, and the copied records are
returned to the caller. -/
def advance (s : CursorSystem) (c : Cursor) (available : UInt64)
    (copied : List Record) (latch : Option Latch) : CursorSystem :=
  { s with
    reader := .ready { c with localTail := c.localTail + available }
      (match latch with
        | none => .idle
        | some l => .latchCheck (l.extend copied))
    returned := s.returned ++ copied }

/-- The entry of `hfior_cursor_stable_latch`. -/
def enterLatch (s : CursorSystem) (c : Cursor) (maxRecords : UInt64)
    (maxPasses : UInt32) : CursorSystem :=
  { s with reader := .ready c (match latchStart maxRecords maxPasses with
      | .error _ => .idle
      | .ok l => if l.continues then .latchPass l else .idle) }

/-- The head load behind a pass, and the end of the loop or the next
pass. -/
def checkLatch (s : CursorSystem) (c : Cursor) (l : Latch) : CursorSystem :=
  let next := latchCheck l s.head c.localTail
  { s with reader := .ready c (if next.2 then .latchPass next.1 else .idle) }

/-- `hfior_cursor_ack`. -/
def sendAck (s : CursorSystem) (c : Cursor) (send : IoResult) : CursorSystem :=
  match cursorAck (some c) send with
  | .error _ => s
  | .ok (c', message) =>
    { s with
      reader := .ready c' .idle
      channel := s.channel ++ message.toList }

/-! ## The bridge -/

/-- The bridge takes the oldest ACK from the socket. -/
def deliver (s : CursorSystem) (ack : AckMessage) (rest : List AckMessage)
    (nowNs : UInt64) (urgent : IoResult) : CursorSystem :=
  { s with
    bridge := (handleControlMessage s.bridge (.ok ack.bytes) nowNs urgent).bridge
    channel := rest }

/-- An ACK that is delivered reaches the ACK branch. -/
theorem deliver_eq (s : CursorSystem) (ack : AckMessage) (rest : List AckMessage)
    (nowNs : UInt64) (urgent : IoResult) :
    s.deliver ack rest nowNs urgent = { s with
      bridge := handleAck (countControlMessage s.bridge) ack nowNs urgent
      channel := rest } := by
  rw [deliver, handleControlMessage_ackBytes]

/-- The device is lost. -/
def loseDevice (s : CursorSystem) (send urgent : IoResult) : CursorSystem :=
  { s with bridge := (markDeviceGone s.bridge send urgent).1 }

/-- The device is opened again. -/
def reconnect (s : CursorSystem) (fd : Int32) (send urgent : IoResult) :
    CursorSystem :=
  let bridge := (tryReconnectDevice s.bridge fd send urgent).2.1
  { s with
    bridge := bridge
    moved := s.moved || bridge.generation != s.bridge.generation }

end CursorSystem

/-! ## The machine -/

/-- The steps.  A label carries what the caller passes, and what the
system calls and the clock return. -/
inductive CursorLabel where
  | publishLoad (record : Record)
  | publishWrite
  | publishStore
  | initHead
  | initTail (fd : Int32) (generation : UInt64) (beginAtCurrentHead : Bool)
  | drain (maxRecords : UInt64)
  | latch (maxRecords : UInt64) (maxPasses : UInt32)
  | latchPass
  | latchCheck
  | copy
  | advance
  | ack (send : IoResult)
  | deliver (nowNs : UInt64) (urgent : IoResult)
  | gone (send urgent : IoResult)
  | reconnect (fd : Int32) (send urgent : IoResult)
deriving DecidableEq

/-- One step.  A label is enabled where the program counter of its side
allows it. -/
def cursorStep (s : CursorSystem) : CursorLabel → Option CursorSystem
  | .publishLoad record => match s.producer with
    | .idle => some (s.publishLoad record)
    | _ => none
  | .publishWrite => match s.producer with
    | .loaded record head tail =>
      if ringFull s.capacity head tail then some s.publishDrop
      else some (s.publishWrite record head)
    | _ => none
  | .publishStore => match s.producer with
    | .wrote record head => some (s.publishStore record head)
    | _ => none
  | .initHead => match s.reader with
    | .absent =>
      if cursorRingValid s.ring then some { s with reader := .headLoaded s.head }
      else none
    | _ => none
  | .initTail fd generation beginAtCurrentHead => match s.reader with
    | .headLoaded head => some (s.makeCursor fd generation beginAtCurrentHead head)
    | _ => none
  | .drain maxRecords => match s.reader with
    | .ready c .idle => some (s.startRead c maxRecords none)
    | _ => none
  | .latch maxRecords maxPasses => match s.reader with
    | .ready c .idle => some (s.enterLatch c maxRecords maxPasses)
    | _ => none
  | .latchPass => match s.reader with
    | .ready c (.latchPass l) => some (s.startRead c l.room (some l))
    | _ => none
  | .latchCheck => match s.reader with
    | .ready c (.latchCheck l) => some (s.checkLatch c l)
    | _ => none
  | .copy => match s.reader with
    | .ready c (.copying available copied latch) =>
      if copied.length < available.toNat then
        some (s.copyNext c available copied latch)
      else none
    | _ => none
  | .advance => match s.reader with
    | .ready c (.copying available copied latch) =>
      if copied.length = available.toNat then
        some (s.advance c available copied latch)
      else none
    | _ => none
  | .ack send => match s.reader with
    | .ready c .idle => some (s.sendAck c send)
    | _ => none
  | .deliver nowNs urgent => match s.channel with
    | ack :: rest => some (s.deliver ack rest nowNs urgent)
    | [] => none
  | .gone send urgent => some (s.loseDevice send urgent)
  | .reconnect fd send urgent => some (s.reconnect fd send urgent)

/-- The interleavings of the bridge and the reader. -/
def cursorMachine : Machine CursorSystem CursorLabel where
  step := cursorStep

/-- Everything that a step can do: the transitions with their guards. -/
inductive CursorStep (s : CursorSystem) : CursorLabel → CursorSystem → Prop
  | publishLoad {record} (hpc : s.producer = .idle) :
    CursorStep s (.publishLoad record) (s.publishLoad record)
  | publishDrop {record head tail} (hpc : s.producer = .loaded record head tail)
      (hfull : ringFull s.capacity head tail = true) :
    CursorStep s .publishWrite s.publishDrop
  | publishWrite {record head tail} (hpc : s.producer = .loaded record head tail)
      (hroom : ringFull s.capacity head tail = false) :
    CursorStep s .publishWrite (s.publishWrite record head)
  | publishStore {record head} (hpc : s.producer = .wrote record head) :
    CursorStep s .publishStore (s.publishStore record head)
  | initHead (hreader : s.reader = .absent)
      (hvalid : cursorRingValid s.ring = true) :
    CursorStep s .initHead { s with reader := .headLoaded s.head }
  | initTail {fd generation beginAtCurrentHead head}
      (hreader : s.reader = .headLoaded head) :
    CursorStep s (.initTail fd generation beginAtCurrentHead)
      (s.makeCursor fd generation beginAtCurrentHead head)
  | drain {c maxRecords} (hreader : s.reader = .ready c .idle) :
    CursorStep s (.drain maxRecords) (s.startRead c maxRecords none)
  | latch {c maxRecords maxPasses} (hreader : s.reader = .ready c .idle) :
    CursorStep s (.latch maxRecords maxPasses) (s.enterLatch c maxRecords maxPasses)
  | latchPass {c l} (hreader : s.reader = .ready c (.latchPass l)) :
    CursorStep s .latchPass (s.startRead c l.room (some l))
  | latchCheck {c l} (hreader : s.reader = .ready c (.latchCheck l)) :
    CursorStep s .latchCheck (s.checkLatch c l)
  | copy {c n copied latch} (hreader : s.reader = .ready c (.copying n copied latch))
      (hlt : copied.length < n.toNat) :
    CursorStep s .copy (s.copyNext c n copied latch)
  | advance {c n copied latch}
      (hreader : s.reader = .ready c (.copying n copied latch))
      (heq : copied.length = n.toNat) :
    CursorStep s .advance (s.advance c n copied latch)
  | ack {c send} (hreader : s.reader = .ready c .idle) :
    CursorStep s (.ack send) (s.sendAck c send)
  | deliver {ack rest nowNs urgent} (hchannel : s.channel = ack :: rest) :
    CursorStep s (.deliver nowNs urgent) (s.deliver ack rest nowNs urgent)
  | gone {send urgent} : CursorStep s (.gone send urgent) (s.loseDevice send urgent)
  | reconnect {fd send urgent} :
    CursorStep s (.reconnect fd send urgent) (s.reconnect fd send urgent)

theorem cursorStep_cases {s t : CursorSystem} {label : CursorLabel}
    (h : cursorMachine.step s label = some t) : CursorStep s label t := by
  have h : cursorStep s label = some t := h
  cases label with
  | publishLoad record =>
    simp only [cursorStep] at h
    split at h
    · obtain rfl := Option.some.inj h
      exact .publishLoad ‹_›
    · cases h
  | publishWrite =>
    simp only [cursorStep] at h
    split at h
    · split at h
      · obtain rfl := Option.some.inj h
        exact .publishDrop ‹_› ‹_›
      · obtain rfl := Option.some.inj h
        exact .publishWrite ‹_› (Bool.eq_false_iff.2 ‹_›)
    · cases h
  | publishStore =>
    simp only [cursorStep] at h
    split at h
    · obtain rfl := Option.some.inj h
      exact .publishStore ‹_›
    · cases h
  | initHead =>
    simp only [cursorStep] at h
    split at h
    · split at h
      · obtain rfl := Option.some.inj h
        exact .initHead ‹_› ‹_›
      · cases h
    · cases h
  | initTail fd generation beginAtCurrentHead =>
    simp only [cursorStep] at h
    split at h
    · obtain rfl := Option.some.inj h
      exact .initTail ‹_›
    · cases h
  | drain maxRecords =>
    simp only [cursorStep] at h
    split at h
    · obtain rfl := Option.some.inj h
      exact .drain ‹_›
    · cases h
  | latch maxRecords maxPasses =>
    simp only [cursorStep] at h
    split at h
    · obtain rfl := Option.some.inj h
      exact .latch ‹_›
    · cases h
  | latchPass =>
    simp only [cursorStep] at h
    split at h
    · obtain rfl := Option.some.inj h
      exact .latchPass ‹_›
    · cases h
  | latchCheck =>
    simp only [cursorStep] at h
    split at h
    · obtain rfl := Option.some.inj h
      exact .latchCheck ‹_›
    · cases h
  | copy =>
    simp only [cursorStep] at h
    split at h
    · split at h
      · obtain rfl := Option.some.inj h
        exact .copy ‹_› ‹_›
      · cases h
    · cases h
  | advance =>
    simp only [cursorStep] at h
    split at h
    · split at h
      · obtain rfl := Option.some.inj h
        exact .advance ‹_› ‹_›
      · cases h
    · cases h
  | ack send =>
    simp only [cursorStep] at h
    split at h
    · obtain rfl := Option.some.inj h
      exact .ack ‹_›
    · cases h
  | deliver nowNs urgent =>
    simp only [cursorStep] at h
    split at h
    · obtain rfl := Option.some.inj h
      exact .deliver ‹_›
    · cases h
  | gone send urgent =>
    obtain rfl := Option.some.inj h
    exact .gone
  | reconnect fd send urgent =>
    obtain rfl := Option.some.inj h
    exact .reconnect

/-! ## The two sides -/

/-- The steps of the reader. -/
def CursorLabel.ofReader : CursorLabel → Bool
  | .initHead | .initTail .. | .drain .. | .latch .. | .latchPass | .latchCheck => true
  | .copy | .advance | .ack .. => true
  | _ => false

/-- Only the reader moves the reader. -/
theorem CursorStep.reader_eq {s t : CursorSystem} {label : CursorLabel}
    (h : CursorStep s label t) (hlabel : label.ofReader = false) : t.reader = s.reader := by
  cases h with
  | deliver hchannel => rw [CursorSystem.deliver_eq]
  | publishLoad | publishDrop | publishWrite | publishStore | gone | reconnect => rfl
  | _ => cases hlabel

end Hfior
