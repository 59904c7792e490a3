import Hfior.Client.Hello

/-!
# Descriptors in control messages

`hfior_send_fds` and `hfior_recv_fds` of `src/common.c`.  A control message
is its level, its type and the bytes behind its header, and the kernel
installs one descriptor for each `int` of an `SCM_RIGHTS` message.

`AccountsFor` is the ledger of a receive: every installed descriptor is either
returned or closed.  The loops keep it (`collect_eq`), and
`recv_fds_accounts_iff` says for which messages the returns before the loops
do.  `send_recv_fds` is the round trip of the two functions.
-/

namespace Hfior

def SOL_SOCKET : Int32 := 1
def SCM_RIGHTS : Int32 := 1

/-- A `struct cmsghdr` with its data. -/
structure ControlMessage where
  level : Int32
  type : Int32
  data : List UInt8
deriving DecidableEq, Repr

namespace ControlMessage

/-- The test that the loop over the control messages makes. -/
def isRights (m : ControlMessage) : Bool :=
  m.level == SOL_SOCKET && m.type == SCM_RIGHTS

/-- The local `found`. -/
def found (m : ControlMessage) : Nat := m.data.length / 4

/-- `received_fds[i]`. -/
def receivedFd (m : ControlMessage) (i : Nat) : Int32 :=
  (UInt32.ofNat (wordAt (4 * i) 4 m.data)).toInt32

/-- All of `received_fds`. -/
def descriptors (m : ControlMessage) : List Int32 :=
  (List.range m.found).map m.receivedFd

/-- The control message of `hfior_send_fds`. -/
def rights (fds : List Int32) : ControlMessage :=
  ⟨SOL_SOCKET, SCM_RIGHTS, fds.flatMap fun fd => leBytes 4 fd.toUInt32.toNat⟩

end ControlMessage

/-- A message that `recvmsg` has received: the bytes in the buffer,
`MSG_CTRUNC`, and the control messages. -/
structure ReceivedMessage where
  bytes : List UInt8
  controlTruncated : Bool
  controls : List ControlMessage
deriving DecidableEq, Repr

/-- The descriptors that the kernel has installed. -/
def ReceivedMessage.installed (m : ReceivedMessage) : List Int32 :=
  (m.controls.filter ControlMessage.isRights).flatMap ControlMessage.descriptors

/-! ## Receiving -/

/-- The descriptors that the loops have stored and closed.  The local `count`
is the length of `fds`. -/
structure Collected where
  fds : List Int32
  closed : List Int32
deriving DecidableEq, Repr

/-- The body of the inner loop. -/
def collectOne (fdCapacity : Nat) (c : Collected) (fd : Int32) : Collected :=
  if c.fds.length < fdCapacity then { c with fds := c.fds ++ [fd] }
  else { c with closed := c.closed ++ [fd] }

/-- The body of the loop over the control messages. -/
def collectMessage (fdCapacity : Nat) (c : Collected) (m : ControlMessage) : Collected :=
  if m.isRights then m.descriptors.foldl (collectOne fdCapacity) c else c

/-- The loop over the control messages. -/
def collect (fdCapacity : Nat) (controls : List ControlMessage) : Collected :=
  controls.foldl (collectMessage fdCapacity) ⟨[], []⟩

/-- What a call of `hfior_recv_fds` returns, stores and closes. -/
structure Receipt where
  returned : Except Errno (List UInt8)
  /-- The value behind the pointer `fd_count`, unless it is `NULL`. -/
  fdCount : Option Nat
  fds : List Int32
  closed : List Int32

/-- `EMSGSIZE`. -/
def EMSGSIZE : Errno := .other 90

/-- `hfior_recv_fds` behind a `recvmsg` that was not interrupted. -/
def receiveMessageFds (received : Except Errno ReceivedMessage) (fdCapacity : Nat)
    (fdCount : Bool) : Receipt :=
  let zero := if fdCount then some 0 else none
  match received with
  | .error errno => ⟨.error errno, zero, [], []⟩
  | .ok m =>
    if m.bytes.isEmpty then ⟨.ok [], zero, [], []⟩
    else if m.controlTruncated then ⟨.error EMSGSIZE, zero, [], []⟩
    else
      let c := collect fdCapacity m.controls
      ⟨.ok m.bytes, if fdCount then some c.fds.length else none, c.fds, c.closed⟩

/-- The first result of `recvmsg` that is not `EINTR`. -/
def uninterrupted : List (Except Errno ReceivedMessage) → Option (Except Errno ReceivedMessage)
  | [] => none
  | .error .EINTR :: rest => uninterrupted rest
  | received :: _ => some received

/-- `hfior_recv_fds`.  `fdCount` says whether the pointer to the count is not
`NULL`.  A call that is still interrupted has no receipt. -/
def hfiorRecvFds (results : List (Except Errno ReceivedMessage)) (fdCapacity : Nat)
    (fdCount : Bool) : Option Receipt :=
  (uninterrupted results).map fun received => receiveMessageFds received fdCapacity fdCount

/-! ## The ledger -/

/-- Each of the installed descriptors is returned, or closed, once. -/
structure AccountsFor (installed : List Int32) (fdCapacity : Nat) (r : Receipt) : Prop where
  once : (r.fds ++ r.closed).Perm installed
  inOrder : r.fds.Sublist installed
  capacity : r.fds.length ≤ fdCapacity
  count : ∀ n, r.fdCount = some n → n = r.fds.length

section
variable {fdCapacity : Nat} {fds : List Int32}

/-- The inner loop fills the array, and closes the rest. -/
theorem foldl_collectOne (fds : List Int32) (c : Collected)
    (hroom : c.fds.length ≤ fdCapacity) :
    fds.foldl (collectOne fdCapacity) c =
      ⟨c.fds ++ fds.take (fdCapacity - c.fds.length),
        c.closed ++ fds.drop (fdCapacity - c.fds.length)⟩ := by
  induction fds generalizing c with
  | nil => simp
  | cons fd rest ih =>
    rw [List.foldl_cons, collectOne]
    split
    · rename_i hlt
      have hsucc : fdCapacity - c.fds.length = fdCapacity - (c.fds.length + 1) + 1 := by
        omega
      have hlength : (c.fds ++ [fd]).length = c.fds.length + 1 := List.length_append
      rw [ih _ (by show (c.fds ++ [fd]).length ≤ _; omega)]
      show Collected.mk (c.fds ++ [fd] ++ rest.take (fdCapacity - (c.fds ++ [fd]).length)) _ = _
      rw [hlength, hsucc, List.take_succ_cons, List.drop_succ_cons, List.append_assoc]
      rfl
    · rename_i hfull
      have hzero : fdCapacity - c.fds.length = 0 := by omega
      rw [ih { c with closed := c.closed ++ [fd] } hroom]
      simp [hzero]

/-- The loops keep the first installed descriptors that fit. -/
theorem collect_eq (m : ReceivedMessage) : collect fdCapacity m.controls =
    ⟨m.installed.take fdCapacity, m.installed.drop fdCapacity⟩ := by
  have hflat : collect fdCapacity m.controls =
      m.installed.foldl (collectOne fdCapacity) ⟨[], []⟩ := by
    rw [ReceivedMessage.installed, List.foldl_flatMap, List.foldl_filter]
    rfl
  rw [hflat, foldl_collectOne _ _ (Nat.zero_le _)]
  rfl

/-- Behind the loops the ledger is right. -/
theorem accountsFor_collect (m : ReceivedMessage) {returned : Except Errno (List UInt8)}
    {fdCount : Option Nat}
    (hcount : ∀ n, fdCount = some n → n = (collect fdCapacity m.controls).fds.length) :
    AccountsFor m.installed fdCapacity
      ⟨returned, fdCount, (collect fdCapacity m.controls).fds,
        (collect fdCapacity m.controls).closed⟩ := by
  constructor
  case once =>
    rw [collect_eq, List.take_append_drop]
  case inOrder =>
    rw [collect_eq]
    exact List.take_sublist _ _
  case capacity =>
    rw [collect_eq]
    exact List.length_take_le _ _
  case count => exact hcount

/-- A return before the loops is right if and only if nothing is
installed. -/
theorem accountsFor_early_iff {installed : List Int32}
    {returned : Except Errno (List UInt8)} (fdCount : Bool) :
    AccountsFor installed fdCapacity
      ⟨returned, if fdCount then some 0 else none, [], []⟩ ↔ installed = [] := by
  constructor
  · intro h
    exact h.once.nil_eq.symm
  · rintro rfl
    refine ⟨.nil, List.Sublist.refl _, Nat.zero_le _, ?_⟩
    intro n hn
    cases fdCount with
    | true => exact (Option.some.inj hn).symm
    | false => cases hn

end

/-- What `recvmsg` has installed by the time that the loop around it ends. -/
def installedBy : Except Errno ReceivedMessage → List Int32
  | .error _ => []
  | .ok m => m.installed

/-- The message reaches the loops over its control data. -/
def ReachesLoops : Except Errno ReceivedMessage → Prop
  | .error _ => False
  | .ok m => m.bytes ≠ [] ∧ m.controlTruncated = false

theorem receiveMessageFds_early {received : Except Errno ReceivedMessage}
    (h : ¬ ReachesLoops received) (fdCapacity : Nat) (fdCount : Bool) :
    ∃ returned, receiveMessageFds received fdCapacity fdCount =
      ⟨returned, if fdCount then some 0 else none, [], []⟩ := by
  cases received with
  | error errno => exact ⟨_, rfl⟩
  | ok m =>
    unfold receiveMessageFds
    dsimp only
    split
    · exact ⟨_, rfl⟩
    split
    · exact ⟨_, rfl⟩
    · rename_i hbytes htruncated
      refine absurd ⟨?_, ?_⟩ h
      · simpa using hbytes
      · simpa using htruncated

theorem receiveMessageFds_loops {m : ReceivedMessage} (h : ReachesLoops (.ok m))
    (fdCapacity : Nat) (fdCount : Bool) :
    receiveMessageFds (.ok m) fdCapacity fdCount =
      ⟨.ok m.bytes,
        if fdCount then some (collect fdCapacity m.controls).fds.length else none,
        (collect fdCapacity m.controls).fds, (collect fdCapacity m.controls).closed⟩ := by
  obtain ⟨hbytes, htruncated⟩ := h
  have hempty : ¬ m.bytes.isEmpty = true := by simpa using hbytes
  have hwhole : ¬ m.controlTruncated = true := by simp [htruncated]
  simp only [receiveMessageFds, if_neg hempty, if_neg hwhole]

/-- For every sequence of interruptions, every received message and every
capacity, each installed descriptor is returned or closed if and only if
there is none, or the message has data and untruncated control data. -/
theorem recv_fds_accounts_iff (results : List (Except Errno ReceivedMessage))
    {received : Except Errno ReceivedMessage} (fdCapacity : Nat) (fdCount : Bool)
    {r : Receipt} (hresults : uninterrupted results = some received)
    (hreturns : hfiorRecvFds results fdCapacity fdCount = some r) :
    AccountsFor (installedBy received) fdCapacity r ↔
      installedBy received = [] ∨ ReachesLoops received := by
  rw [hfiorRecvFds, hresults, Option.map_some] at hreturns
  obtain rfl := Option.some.inj hreturns
  by_cases hloops : ReachesLoops received
  · cases received with
    | error errno => exact absurd hloops id
    | ok m =>
      rw [receiveMessageFds_loops hloops]
      refine iff_of_true (accountsFor_collect m ?_) (.inr hloops)
      intro n hn
      cases fdCount with
      | true => exact (Option.some.inj hn).symm
      | false => cases hn
  · obtain ⟨returned, hearly⟩ := receiveMessageFds_early hloops fdCapacity fdCount
    rw [hearly, accountsFor_early_iff]
    exact (or_iff_left hloops).symm

/-- Two descriptors in one message, one more in a second, and room for two. -/
theorem recv_fds_accounts_two :
    AccountsFor [5, 6, 7] 2 ⟨.ok [1], some 2, [5, 6], [7]⟩ := by
  have hiff := recv_fds_accounts_iff
    [.error .EINTR, .ok ⟨[1], false, [.rights [5, 6], ⟨1, 2, []⟩, .rights [7]]⟩]
    2 true rfl rfl
  exact hiff.2 (.inr ⟨by decide, rfl⟩)

/-- Control data that did not fit: nine descriptors were sent, eight are
installed, and all of them leak. -/
theorem recv_fds_leaks : ∃ r,
    hfiorRecvFds [.ok ⟨[1], true, [.rights [3, 4, 5, 6, 7, 8, 9, 10]]⟩] 4 true = some r ∧
      r.returned = .error EMSGSIZE ∧ r.fds = [] ∧ r.closed = [] ∧
      ¬ AccountsFor [3, 4, 5, 6, 7, 8, 9, 10] 4 r := by
  refine ⟨_, rfl, rfl, rfl, rfl, ?_⟩
  intro h
  exact absurd h.once.nil_eq (by decide)

/-! ## Sending -/

/-- What `sendmsg` returns: the number of bytes that it took, or `errno`. -/
abbrev SendResult := Except Errno Nat

/-- The first result of `sendmsg` that is not `EINTR`. -/
def uninterruptedSend : List SendResult → Option SendResult
  | [] => none
  | .error .EINTR :: rest => uninterruptedSend rest
  | result :: _ => some result

/-- `E2BIG` and `EIO`. -/
def E2BIG : Errno := .other 7
def EIO : Errno := .other 5

/-- The control messages of `hfior_send_fds`. -/
def sentControls (fds : List Int32) : List ControlMessage :=
  if fds.isEmpty then [] else [.rights fds]

/-- `hfior_send_fds`.  A call that is still interrupted has no result. -/
def hfiorSendFds (message : List UInt8) (fds : List Int32) (results : List SendResult) :
    Option (Except Errno Unit) :=
  if fds.length > 8 then some (.error E2BIG)
  else (uninterruptedSend results).map fun result => match result with
    | .error errno => .error errno
    | .ok written => if written != message.length then .error EIO else .ok ()

theorem receivedFd_rights (fds : List Int32) {i : Nat} (hi : i < fds.length) :
    (ControlMessage.rights fds).receivedFd i = fds[i] := by
  have hword : wordAt (4 * i) 4 (ControlMessage.rights fds).data = fds[i].toUInt32.toNat :=
    wordAt_flatMap_leBytes hi (fds[i].toUInt32.toNat_lt)
  rw [ControlMessage.receivedFd, hword, UInt32.ofNat_toNat]
  rfl

theorem descriptors_rights (fds : List Int32) :
    (ControlMessage.rights fds).descriptors = fds := by
  have hfound : (ControlMessage.rights fds).found = fds.length := by
    rw [ControlMessage.found, ControlMessage.rights, length_flatMap_leBytes]
    omega
  rw [ControlMessage.descriptors, hfound]
  refine List.ext_getElem (by rw [List.length_map, List.length_range]) ?_
  intro i h1 h2
  rw [List.getElem_map, List.getElem_range]
  exact receivedFd_rights fds h2

theorem installed_sentControls (bytes : List UInt8) (fds : List Int32) :
    (ReceivedMessage.mk bytes false (sentControls fds)).installed = fds := by
  rw [ReceivedMessage.installed, sentControls]
  split
  · rename_i hempty
    exact (List.isEmpty_iff.1 hempty).symm
  · show [ControlMessage.rights fds].flatMap ControlMessage.descriptors = fds
    rw [List.flatMap_singleton, descriptors_rights]

/-- A call that returns 0 has sent at most eight descriptors. -/
theorem hfiorSendFds_length {message : List UInt8} {fds : List Int32}
    {results : List SendResult} (h : hfiorSendFds message fds results = some (.ok ())) :
    fds.length ≤ 8 := by
  unfold hfiorSendFds at h
  split at h
  · cases h
  · omega

/-- What was sent with success, and arrives whole, is received with the same
descriptors, and nothing is closed. -/
theorem send_recv_fds {message : List UInt8} {fds : List Int32} {results : List SendResult}
    (hsent : hfiorSendFds message fds results = some (.ok ())) (hmessage : message ≠ [])
    {fdCapacity : Nat} (hcapacity : 8 ≤ fdCapacity) :
    hfiorRecvFds [.ok ⟨message, false, sentControls fds⟩] fdCapacity true =
      some ⟨.ok message, some fds.length, fds, []⟩ := by
  have hroom : fds.length ≤ fdCapacity := (hfiorSendFds_length hsent).trans hcapacity
  have hloops : ReachesLoops (.ok ⟨message, false, sentControls fds⟩) := ⟨hmessage, rfl⟩
  show some (receiveMessageFds _ fdCapacity true) = _
  rw [receiveMessageFds_loops hloops, collect_eq, installed_sentControls,
    List.take_of_length_le hroom, List.drop_of_length_le hroom]
  rfl

/-- What `receive_hello` takes from the call. -/
theorem receiveMessageFds_recvFds (m : ReceivedMessage) {messageCapacity : Nat}
    (hfits : m.bytes.length ≤ messageCapacity) (fdCapacity : Nat) (fdCount : Bool) :
    recvFds (.ok ⟨m.bytes, m.controlTruncated,
        (m.controls.filter ControlMessage.isRights).map ControlMessage.descriptors⟩)
      messageCapacity fdCapacity =
    (receiveMessageFds (.ok m) fdCapacity fdCount).returned.map fun bytes =>
      (bytes, (receiveMessageFds (.ok m) fdCapacity fdCount).fds) := by
  unfold recvFds receiveMessageFds
  dsimp only
  split
  · rfl
  split
  · rfl
  · rw [collect_eq, List.take_of_length_le hfits, ReceivedMessage.installed,
      List.flatMap_def]
    rfl

end Hfior
