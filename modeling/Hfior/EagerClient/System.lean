import Hfior.Client.Basic
import Hfior.Library.InTurn
import Hfior.Library.Machine

/-!
# The two readers of the eager socket

Under the policy `eager-thread` the ingress thread calls
`drain_control_socket_nonblocking` while it runs.  At the shutdown the main
thread calls it too, first in the shutdown loop, where the ingress thread is
still running, and once more behind the join.  No lock is held, so `recv`,
the accounting of a message and its push to the queue are steps of their
own, with the callback work between the first two.

The shadow drains of the ring are left out: they touch neither the ledger
nor the queue.  The fields `sent`, `received`, `taken` and `accounted`, and
the positions of the messages in work, are ghosts.
-/

namespace Hfior

/-- The threads that call `drain_control_socket_nonblocking`. -/
inductive EagerThread where
  | ingress | main
deriving DecidableEq, Repr

def EagerThread.other : EagerThread → EagerThread
  | .ingress => .main
  | .main => .ingress

/-- Where a thread is in `drain_control_socket_nonblocking`. -/
inductive EagerPhase where
  /-- Not in it. -/
  | outside
  /-- About to call `recv`. -/
  | receives
  /-- In `process_eager_message`, before and in the callback work. -/
  | accounts (message : EagerRecordMessage) (position : Nat)
  /-- In `process_eager_message`, before the queue push. -/
  | pushes (message : EagerRecordMessage) (position : Nat)
deriving DecidableEq, Repr

namespace EagerPhase

/-- The position of a message that is not accounted for. -/
def unaccounted : EagerPhase → Option Nat
  | .accounts _ position => some position
  | _ => none

/-- The position of a message that is not pushed. -/
def unpushed : EagerPhase → Option Nat
  | .accounts _ position | .pushes _ position => some position
  | _ => none

/-- The message in work, with its position. -/
def message : EagerPhase → Option (EagerRecordMessage × Nat)
  | .accounts message position | .pushes message position =>
    some (message, position)
  | _ => none

theorem unpushed_eq (phase : EagerPhase) :
    phase.unpushed = phase.message.map Prod.snd := by
  cases phase <;> rfl

theorem unaccounted_of_message {phase : EagerPhase} (h : phase.message = none) :
    phase.unaccounted = none := by
  cases phase with
  | outside | receives | pushes => rfl
  | accounts m p => cases h

end EagerPhase

/-- Where `main` is. -/
inductive EagerStage where
  /-- In the frame loop. -/
  | running
  /-- In the shutdown loop. -/
  | shutdown
  /-- `stop` is set and the reading side of the socket is closed. -/
  | stopping
  /-- Behind `pthread_join`. -/
  | joined
deriving DecidableEq, Repr

/-- The thread that makes no call any more: the main thread while it waits in
`pthread_join`, and the ingress thread behind it. -/
def EagerStage.parked : EagerStage → Option EagerThread
  | .stopping => some .main
  | .joined => some .ingress
  | _ => none

/-- How a `recv` can end the loop. -/
inductive RecvEnd where
  /-- EAGAIN. -/
  | empty
  /-- EINTR. -/
  | interrupted
  /-- A `recv` of zero bytes. -/
  | closed
  | failed
deriving DecidableEq, Repr

structure EagerSystem where
  client : Client
  /-- The datagrams of the bridge, oldest first. -/
  socket : List BridgeMessage
  phase : EagerThread → EagerPhase
  stage : EagerStage
  /-- All EAGER_RECORD datagrams that the bridge has sent. -/
  sent : List EagerRecordMessage
  /-- How many of them were received. -/
  received : Nat
  /-- The batches that `take_pending` returned. -/
  taken : List (List Record)
  /-- The records that `account_sequences` has seen. -/
  accounted : List Record

/-- The EAGER_RECORD datagrams of a list. -/
def eagerRecords (messages : List BridgeMessage) : List EagerRecordMessage :=
  messages.filterMap fun
    | .eagerRecord message => some message
    | _ => none

namespace EagerSystem

/-- The client behind `start_ingress_thread`. -/
def initial (generation position : UInt64) : EagerSystem where
  client := .start .eagerThread generation position
  socket := []
  phase _ := .outside
  stage := .running
  sent := []
  received := 0
  taken := []
  accounted := []

def sentRecords (s : EagerSystem) : List Record :=
  s.sent.map EagerRecordMessage.record

theorem sentRecords_get (s : EagerSystem) {m : EagerRecordMessage} {p : Nat}
    (h : s.sent[p]? = some m) : s.sentRecords[p]? = some m.record := by
  rw [sentRecords, List.getElem?_map, h]
  rfl

/-- The records in the order of their push to the pending queue. -/
def pushed (s : EagerSystem) : List Record :=
  s.taken.flatten ++ s.client.pending.records

def unaccounted (s : EagerSystem) (thread : EagerThread) : Option Nat :=
  (s.phase thread).unaccounted

def unpushed (s : EagerSystem) (thread : EagerThread) : Option Nat :=
  (s.phase thread).unpushed

/-- The main thread is behind its last drain, which left nothing. -/
def Finished (s : EagerSystem) : Prop :=
  s.stage = .joined ∧ s.phase .main = .outside ∧ s.socket = []

/-! ## The steps -/

def goTo (s : EagerSystem) (thread : EagerThread) (phase : EagerPhase) :
    EagerSystem :=
  { s with phase := Function.update s.phase thread phase }

@[simp] theorem goTo_phase (s : EagerSystem) (thread : EagerThread)
    (phase : EagerPhase) :
    (s.goTo thread phase).phase = Function.update s.phase thread phase := rfl

theorem goTo_unaccounted (s : EagerSystem) (thread : EagerThread)
    (phase : EagerPhase) : (s.goTo thread phase).unaccounted =
      Function.update s.unaccounted thread phase.unaccounted := by
  funext other
  by_cases h : other = thread
  · subst h
    simp [unaccounted]
  · simp [unaccounted, Function.update_of_ne h]

theorem goTo_unpushed (s : EagerSystem) (thread : EagerThread)
    (phase : EagerPhase) : (s.goTo thread phase).unpushed =
      Function.update s.unpushed thread phase.unpushed := by
  funext other
  by_cases h : other = thread
  · subst h
    simp [unpushed]
  · simp [unpushed, Function.update_of_ne h]

/-- The bridge sends a datagram. -/
def send (s : EagerSystem) (message : BridgeMessage) : EagerSystem :=
  { s with
    socket := s.socket ++ [message]
    sent := s.sent ++ eagerRecords [message] }

theorem sentRecords_send (s : EagerSystem) (message : BridgeMessage) :
    s.sentRecords <+: (s.send message).sentRecords :=
  (List.prefix_append _ _).map _

/-- The conditions under which a thread calls
`drain_control_socket_nonblocking`.  The last call of the main thread is in
`join`. -/
def mayEnter (s : EagerSystem) : EagerThread → Bool
  | .ingress => s.stage != .joined
  | .main => s.stage == .shutdown && !s.client.terminalSeen

theorem not_parked_of_mayEnter (s : EagerSystem) {thread : EagerThread}
    (h : s.mayEnter thread = true) : s.stage.parked ≠ some thread := by
  intro hparked
  cases thread with
  | ingress =>
    cases hstage : s.stage with
    | joined => simp [mayEnter, hstage] at h
    | running | shutdown | stopping =>
      rw [hstage] at hparked
      cases hparked
  | main =>
    cases hstage : s.stage with
    | stopping => simp [mayEnter, hstage] at h
    | running | shutdown | joined =>
      rw [hstage] at hparked
      cases hparked

/-- An EAGER_RECORD datagram leaves the socket. -/
def takeEager (s : EagerSystem) (thread : EagerThread)
    (message : EagerRecordMessage) (rest : List BridgeMessage) : EagerSystem :=
  { s.goTo thread (.accounts message s.received) with
    socket := rest
    received := s.received + 1 }

/-- A datagram of another kind, which leaves the client `client`. -/
def takeOther (s : EagerSystem) (client : Client) (rest : List BridgeMessage) :
    EagerSystem :=
  { s with client := client, socket := rest }

/-- Whether a `recv` can end this way. -/
def mayEnd (s : EagerSystem) : RecvEnd → Bool
  | .empty | .closed => s.socket.isEmpty
  | .interrupted | .failed => true

/-- The end of the loop. -/
def leave (s : EagerSystem) (thread : EagerThread) (ending : RecvEnd) :
    EagerSystem :=
  { s.goTo thread .outside with
    client := { s.client with
      terminalSeen := s.client.terminalSeen ||
        (ending == .closed || ending == .failed) } }

/-- `process_eager_message` up to the queue push. -/
def account (s : EagerSystem) (thread : EagerThread)
    (message : EagerRecordMessage) (position : Nat) (nowNs : UInt64) :
    EagerSystem :=
  { s.goTo thread (.pushes message position) with
    client := accountEager s.client message nowNs
    accounted := s.accounted ++ [message.record] }

/-- A message was pushed, which leaves the client `client`. -/
def push (s : EagerSystem) (thread : EagerThread) (client : Client) :
    EagerSystem :=
  { s.goTo thread .receives with client := client }

/-- `take_pending`. -/
def takePending (s : EagerSystem) : EagerSystem :=
  { s with
    client := { s.client with pending := (queueTakeAll s.client.pending).2 }
    taken := s.taken ++ [(queueTakeAll s.client.pending).1] }

/-- `pthread_join`, and the call of the last drain. -/
def join (s : EagerSystem) : EagerSystem :=
  { s.goTo .main .receives with stage := .joined }

end EagerSystem

inductive EagerLabel where
  | send (message : BridgeMessage)
  | enter (thread : EagerThread)
  | recv (thread : EagerThread)
  | leave (thread : EagerThread) (ending : RecvEnd)
  | account (thread : EagerThread) (nowNs : UInt64)
  | push (thread : EagerThread)
  | takePending
  | beginShutdown
  | stop
  | join
deriving DecidableEq

/-- One step.  The bridge can send until the reading side is closed. -/
def eagerStep (s : EagerSystem) : EagerLabel → Option EagerSystem
  | .send message =>
    if s.stage = .running ∨ s.stage = .shutdown then some (s.send message)
    else none
  | .enter thread =>
    if s.phase thread = .outside ∧ s.mayEnter thread then
      some (s.goTo thread .receives)
    else none
  | .recv thread =>
    if s.phase thread = .receives then
      match s.socket with
      | .eagerRecord message :: rest => some (s.takeEager thread message rest)
      | message :: rest =>
        (receiveMessage s.client true 0 message).map (s.takeOther · rest)
      | [] => none
    else none
  | .leave thread ending =>
    if s.phase thread = .receives ∧ s.mayEnd ending then
      some (s.leave thread ending)
    else none
  | .account thread nowNs => match s.phase thread with
    | .accounts message position => some (s.account thread message position nowNs)
    | _ => none
  | .push thread => match s.phase thread with
    | .pushes message _ =>
      (pushPending s.client [message.record]).map (s.push thread)
    | _ => none
  | .takePending => if s.stage = .running then some s.takePending else none
  | .beginShutdown =>
    if s.stage = .running then some { s with stage := .shutdown } else none
  | .stop =>
    if s.stage = .shutdown ∧ s.phase .main = .outside then
      some { s with stage := .stopping }
    else none
  | .join =>
    if s.stage = .stopping ∧ s.phase .ingress = .outside then some s.join else none

/-- The interleavings of the bridge and the two threads. -/
def eagerMachine : Machine EagerSystem EagerLabel where
  step := eagerStep

/-- Everything that a step can do. -/
inductive EagerStep (s : EagerSystem) : EagerLabel → EagerSystem → Prop
  | send {message} (hstage : s.stage = .running ∨ s.stage = .shutdown) :
    EagerStep s (.send message) (s.send message)
  | enter {thread} (hphase : s.phase thread = .outside) (henter : s.mayEnter thread = true) :
    EagerStep s (.enter thread) (s.goTo thread .receives)
  | recvEager {thread message rest} (hphase : s.phase thread = .receives)
    (hsocket : s.socket = .eagerRecord message :: rest) :
    EagerStep s (.recv thread) (s.takeEager thread message rest)
  | recvOther {thread message rest client} (hphase : s.phase thread = .receives)
    (hsocket : s.socket = message :: rest) (hother : eagerRecords [message] = [])
    (hclient : receiveMessage s.client true 0 message = some client) :
    EagerStep s (.recv thread) (s.takeOther client rest)
  | leave {thread ending} (hphase : s.phase thread = .receives)
    (hending : s.mayEnd ending = true) :
    EagerStep s (.leave thread ending) (s.leave thread ending)
  | account {thread nowNs message position}
    (hphase : s.phase thread = .accounts message position) :
    EagerStep s (.account thread nowNs) (s.account thread message position nowNs)
  | push {thread message position client} (hphase : s.phase thread = .pushes message position)
    (hpush : pushPending s.client [message.record] = some client) :
    EagerStep s (.push thread) (s.push thread client)
  | takePending (hstage : s.stage = .running) : EagerStep s .takePending s.takePending
  | beginShutdown (hstage : s.stage = .running) :
    EagerStep s .beginShutdown { s with stage := .shutdown }
  | stop (hstage : s.stage = .shutdown) (hmain : s.phase .main = .outside) :
    EagerStep s .stop { s with stage := .stopping }
  | join (hstage : s.stage = .stopping) (hingress : s.phase .ingress = .outside) :
    EagerStep s .join s.join

theorem eagerStep_cases {s t : EagerSystem} {label : EagerLabel}
    (h : eagerMachine.step s label = some t) : EagerStep s label t := by
  have h : eagerStep s label = some t := h
  cases label with
  | send message =>
    simp only [eagerStep] at h
    split at h
    · obtain rfl := Option.some.inj h
      exact .send ‹_›
    · cases h
  | enter thread =>
    simp only [eagerStep] at h
    split at h
    · rename_i hguard
      obtain rfl := Option.some.inj h
      exact .enter hguard.1 hguard.2
    · cases h
  | recv thread =>
    simp only [eagerStep] at h
    split at h
    · rename_i hphase
      split at h
      · rename_i message rest hsocket
        obtain rfl := Option.some.inj h
        exact .recvEager hphase hsocket
      · rename_i message rest hnot hsocket
        obtain ⟨client, hclient, rfl⟩ := Option.map_eq_some_iff.1 h
        refine .recvOther hphase hsocket ?_ hclient
        cases message with
        | eagerRecord message => exact absurd rfl (hnot message)
        | deviceState message | other header => rfl
      · cases h
    · cases h
  | leave thread ending =>
    simp only [eagerStep] at h
    split at h
    · rename_i hguard
      obtain rfl := Option.some.inj h
      exact .leave hguard.1 hguard.2
    · cases h
  | account thread nowNs =>
    simp only [eagerStep] at h
    split at h
    · obtain rfl := Option.some.inj h
      exact .account ‹_›
    · cases h
  | push thread =>
    simp only [eagerStep] at h
    split at h
    · rename_i hphase
      obtain ⟨client, hpush, rfl⟩ := Option.map_eq_some_iff.1 h
      exact .push hphase hpush
    · cases h
  | takePending =>
    simp only [eagerStep] at h
    split at h
    · obtain rfl := Option.some.inj h
      exact .takePending ‹_›
    · cases h
  | beginShutdown =>
    simp only [eagerStep] at h
    split at h
    · obtain rfl := Option.some.inj h
      exact .beginShutdown ‹_›
    · cases h
  | stop =>
    simp only [eagerStep] at h
    split at h
    · rename_i hguard
      obtain rfl := Option.some.inj h
      exact .stop hguard.1 hguard.2
    · cases h
  | join =>
    simp only [eagerStep] at h
    split at h
    · rename_i hguard
      obtain rfl := Option.some.inj h
      exact .join hguard.1 hguard.2
    · cases h

end Hfior
