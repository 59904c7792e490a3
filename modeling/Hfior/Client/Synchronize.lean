import Hfior.Bridge.Barrier
import Hfior.Client.Basic

/-!
# `synchronize_start`

The client sends START and waits in a loop for STARTED.  A script lists what
`recv` returns, one result after the other, until the bridge closes its end.
From then on `recv` returns 0, and the loop takes that for one more message
of another kind.

`synchronize_ends_iff` says for which scripts the loop ends, and
`handshake_ends_iff` says it for the start barrier of the bridge.
-/

namespace Hfior

/-! ## The client -/

/-- The results of `recv`, until the bridge has closed its end. -/
abbrev RecvScript := List (Except Errno (List UInt8))

/-- One `recv` into a `struct hfior_message_header`, which cuts a longer
datagram.  Behind the script it returns no bytes. -/
def recvResponse : RecvScript → Except Errno (List UInt8) × RecvScript
  | [] => (.ok [], [])
  | received :: rest => (received.map (List.take sizeofMessageHeader), rest)

/-- The test of the loop on the received bytes. -/
def isStarted (response : List UInt8) : Bool :=
  response.length == sizeofMessageHeader &&
    (messageHeader response).size == UInt32.ofNat sizeofMessageHeader &&
    (messageHeader response).type == HFIOR_MSG_STARTED

/-- How the loop ends: with STARTED, or in `die`. -/
inductive AwaitEnd where
  | started
  | died (errno : Errno)
deriving DecidableEq, Repr

/-- The loop, for at most so many rounds. -/
def awaitStarted : Nat → RecvScript → Option AwaitEnd
  | 0, _ => none
  | rounds + 1, script => match recvResponse script with
    | (.error .EINTR, rest) => awaitStarted rounds rest
    | (.error errno, _) => some (.died errno)
    | (.ok response, rest) =>
      if isStarted response then some .started else awaitStarted rounds rest

/-- How `synchronize_start` ends: the client at the head, or `die`. -/
inductive Synchronized where
  | started (client : Client)
  | died (errno : Errno)
deriving DecidableEq, Repr

/-- What follows the loop: the head load. -/
def AwaitEnd.synchronized (c : Client) (ring : RingHeader) : AwaitEnd → Synchronized
  | .died errno => .died errno
  | .started => .started { c with
      localTail := ring.producer.head
      lastAckedTail := ring.producer.head }

/-- `synchronize_start`, with at most so many rounds of its loop. -/
def synchronizeStart (c : Client) (ring : RingHeader) (send : IoResult) (rounds : Nat)
    (script : RecvScript) : Option Synchronized :=
  match send with
  | .failed errno => some (.died errno)
  | .done => (awaitStarted rounds script).map (AwaitEnd.synchronized c ring)

/-- Some number of rounds is enough. -/
def SynchronizeEnds (c : Client) (ring : RingHeader) (send : IoResult)
    (script : RecvScript) : Prop :=
  ∃ rounds result, synchronizeStart c ring send rounds script = some result

/-! ## When the loop ends -/

/-- The results that end the loop. -/
def endsAwait : Except Errno (List UInt8) → Bool
  | .error errno => errno != .EINTR
  | .ok datagram => isStarted (datagram.take sizeofMessageHeader)

theorem awaitStarted_nil (rounds : Nat) : awaitStarted rounds [] = none := by
  induction rounds with
  | zero => rfl
  | succ rounds ih => exact ih

/-- A result that does not end the loop is left behind. -/
theorem awaitStarted_skip {received : Except Errno (List UInt8)}
    (h : endsAwait received = false) (rounds : Nat) (rest : RecvScript) :
    awaitStarted (rounds + 1) (received :: rest) = awaitStarted rounds rest := by
  cases received with
  | error errno =>
    have herrno : errno = .EINTR := by simpa [endsAwait] using h
    rw [herrno]
    rfl
  | ok datagram =>
    have hother : isStarted (datagram.take sizeofMessageHeader) = false := h
    simp only [awaitStarted, recvResponse, Except.map, hother, Bool.false_eq_true, if_false]

theorem awaitStarted_end {received : Except Errno (List UInt8)}
    (h : endsAwait received = true) (rounds : Nat) (rest : RecvScript) :
    ∃ result, awaitStarted (rounds + 1) (received :: rest) = some result := by
  cases received with
  | error errno =>
    refine ⟨.died errno, ?_⟩
    cases errno with
    | EINTR => cases h
    | _ => rfl
  | ok datagram =>
    have hstarted : isStarted (datagram.take sizeofMessageHeader) = true := h
    refine ⟨.started, ?_⟩
    simp only [awaitStarted, recvResponse, Except.map, hstarted, if_true]

/-- The loop ends within the script or never. -/
theorem awaitStarted_ends_iff (script : RecvScript) :
    (∃ rounds result, awaitStarted rounds script = some result) ↔
      ∃ received ∈ script, endsAwait received = true := by
  induction script with
  | nil =>
    constructor
    · rintro ⟨rounds, result, hend⟩
      rw [awaitStarted_nil] at hend
      cases hend
    · rintro ⟨received, hmem, -⟩
      cases hmem
  | cons received rest ih =>
    cases hreceived : endsAwait received with
    | true =>
      obtain ⟨result, hend⟩ := awaitStarted_end hreceived 0 rest
      exact ⟨fun _ => ⟨received, List.mem_cons_self, hreceived⟩, fun _ => ⟨1, result, hend⟩⟩
    | false =>
      have hrest : (∃ rounds result, awaitStarted rounds (received :: rest) = some result) ↔
          ∃ rounds result, awaitStarted rounds rest = some result := by
        constructor
        · rintro ⟨rounds, result, hend⟩
          cases rounds with
          | zero => cases hend
          | succ rounds =>
            rw [awaitStarted_skip hreceived] at hend
            exact ⟨rounds, result, hend⟩
        · rintro ⟨rounds, result, hend⟩
          refine ⟨rounds + 1, result, ?_⟩
          rw [awaitStarted_skip hreceived]
          exact hend
      rw [hrest, ih]
      simp [hreceived]

/-- The rounds of the loop are enough for the call. -/
theorem synchronizeEnds_iff (c : Client) (ring : RingHeader) (script : RecvScript) :
    SynchronizeEnds c ring .done script ↔
      ∃ rounds result, awaitStarted rounds script = some result := by
  constructor
  · rintro ⟨rounds, result, hend⟩
    obtain ⟨ending, hawait, -⟩ := Option.map_eq_some_iff.1 hend
    exact ⟨rounds, ending, hawait⟩
  · rintro ⟨rounds, ending, hawait⟩
    refine ⟨rounds, ending.synchronized c ring, ?_⟩
    rw [synchronizeStart, hawait]
    rfl

/-- The call ends if and only if START cannot be sent, or the bridge sends
STARTED before it closes its end, or `recv` fails otherwise than by an
interruption. -/
theorem synchronize_ends_iff (c : Client) (ring : RingHeader) (send : IoResult)
    (script : RecvScript) :
    SynchronizeEnds c ring send script ↔
      send ≠ .done ∨ ∃ received ∈ script, endsAwait received = true := by
  cases send with
  | done =>
    rw [synchronizeEnds_iff, awaitStarted_ends_iff]
    simp
  | failed errno => exact ⟨fun _ => .inl nofun, fun _ => ⟨0, .died errno, rfl⟩⟩

/-! ## The bridge -/

/-- What one round of the start barrier meets. -/
structure BarrierRound where
  received : Except Errno (List UInt8)
  armed : Bool
  send : IoResult

/-- The datagrams that `wait_for_start_barrier` sends in some rounds, behind
which the bridge stops. -/
def barrierAnswers (b : Bridge) (modeReceived : Bool) :
    List BarrierRound → List (List UInt8)
  | [] => []
  | round :: rest =>
    match barrierMessage b modeReceived round.received round.armed round.send with
    | .waiting b modeReceived => barrierAnswers b modeReceived rest
    | .started _ reply => [headerBytes reply.type]
    | .failed | .stopped _ => []

/-- A round that starts answers with STARTED. -/
theorem barrierMessage_started {b b' : Bridge} {modeReceived : Bool}
    {received : Except Errno (List UInt8)} {armed : Bool} {send : IoResult}
    {reply : MessageHeader}
    (h : barrierMessage b modeReceived received armed send = .started b' reply) :
    reply = startedMessage := by
  unfold barrierMessage dispatchBarrier handleStart at h
  grind

/-- The barrier answers with STARTED, or it does not answer. -/
theorem barrierAnswers_cases (b : Bridge) (modeReceived : Bool) (rounds : List BarrierRound) :
    barrierAnswers b modeReceived rounds = [] ∨
      barrierAnswers b modeReceived rounds = [headerBytes HFIOR_MSG_STARTED] := by
  induction rounds generalizing b modeReceived with
  | nil => exact .inl rfl
  | cons round rest ih =>
    rw [barrierAnswers]
    cases hround : barrierMessage b modeReceived round.received round.armed round.send with
    | waiting b' seen => exact ih b' seen
    | started b' reply =>
      rw [barrierMessage_started hround]
      exact .inr rfl
    | failed | stopped => exact .inl rfl

theorem endsAwait_started : endsAwait (.ok (headerBytes HFIOR_MSG_STARTED)) = true := by
  decide

/-- With the bridge of this repository the handshake of the client ends if
and only if the barrier answers. -/
theorem handshake_ends_iff (c : Client) (ring : RingHeader) (b : Bridge) (modeReceived : Bool)
    (rounds : List BarrierRound) :
    SynchronizeEnds c ring .done ((barrierAnswers b modeReceived rounds).map .ok) ↔
      barrierAnswers b modeReceived rounds ≠ [] := by
  rw [synchronizeEnds_iff, awaitStarted_ends_iff]
  rcases barrierAnswers_cases b modeReceived rounds with hnone | hstarted
  · rw [hnone]
    simp
  · rw [hstarted]
    simp [endsAwait_started]

/-- A client sends SET_MODE and START, and the source of the bridge cannot be
armed. -/
def unarmedRounds : List BarrierRound :=
  [⟨.ok (SetModeMessage.bytes ⟨HFIOR_MODE_HFIOR, 240, 0⟩), true, .done⟩,
    ⟨.ok (headerBytes HFIOR_MSG_START), false, .done⟩]

/-- The bridge gives up without an answer, and the client waits for ever. -/
theorem synchronize_hangs :
    barrierAnswers (freshBridge 64) false unarmedRounds = [] ∧
      ¬ ∀ script : RecvScript,
        (∀ errno, .error errno ∈ script → errno = .EINTR) →
          SynchronizeEnds (.start .hfiorLate 1 0) (freshBridge 64).ring .done script := by
  have hanswers : barrierAnswers (freshBridge 64) false unarmedRounds = [] := by decide
  refine ⟨hanswers, fun h => ?_⟩
  obtain ⟨rounds, result, hend⟩ := h [] (fun _ hmem => by cases hmem)
  rw [synchronizeStart, awaitStarted_nil] at hend
  cases hend

end Hfior
