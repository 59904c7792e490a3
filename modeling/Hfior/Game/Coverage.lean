import Hfior.Game.Moves
import Hfior.Library.Traces
import Mathlib.Data.Nat.Bitwise

/-!
# What an acknowledge covers

`coverageOf` reads a trace as the tail of the last activation and the
positions that have been delivered since.  `Covered` is the invariant: these
are exactly the positions from that tail to the local tail.  An acknowledge
sends the local tail, so it covers no position that was not delivered.
-/

namespace Hfior

/-! ## The request -/

/-- The position that the compositor reads from a request. -/
def AckRequest.consumedTail (request : AckRequest) : UInt64 :=
  request.consumedTailHi.toUInt64 <<< 32 ||| request.consumedTailLo.toUInt64

/-- The two halves of a word are the word. -/
theorem high_or_low (x : UInt64) :
    (x >>> 32).toUInt32.toUInt64 <<< 32 ||| x.toUInt32.toUInt64 = x := by
  have hlt := x.toNat_lt
  have hlow : x.toNat % 2 ^ 32 < 2 ^ 32 := Nat.mod_lt _ (by decide)
  have hor := Nat.two_pow_add_eq_or_of_lt hlow (x.toNat / 2 ^ 32)
  have hhigh : x.toNat / 2 ^ 32 % 2 ^ 32 = x.toNat / 2 ^ 32 := Nat.mod_eq_of_lt (by omega)
  have hshifted : x.toNat / 2 ^ 32 * 2 ^ 32 % 2 ^ 64 = 2 ^ 32 * (x.toNat / 2 ^ 32) := by
    omega
  apply UInt64.toNat_inj.1
  simp only [UInt64.toNat_or, UInt64.toNat_shiftLeft, UInt32.toNat_toUInt64,
    UInt64.toNat_toUInt32, UInt64.toNat_shiftRight, Nat.shiftLeft_eq,
    Nat.shiftRight_eq_div_pow, show (32 : UInt64).toNat % 64 = 32 from rfl]
  rw [hhigh, hshifted, ← hor]
  omega

theorem consumedTail_ackRequest (c : GameClient) : c.ackRequest.consumedTail = c.localTail :=
  high_or_low c.localTail

/-! ## The delivered positions -/

/-- The tail of the last activation, and the positions that have been
delivered since. -/
structure Coverage where
  base : Nat
  delivered : List Nat
deriving DecidableEq, Repr

/-- What an entry adds.  A disconnect resets the local tail. -/
def Coverage.add (coverage : Coverage) : GameEntry → Coverage
  | .activated tail => ⟨tail.toNat, []⟩
  | .disconnected => ⟨0, []⟩
  | .delivered first records =>
    { coverage with
      delivered := coverage.delivered ++ List.range' first.toNat records.length }
  | .fault | .ackSent _ | .acknowledged => coverage

def coverageOf (trace : List GameEntry) : Coverage :=
  trace.foldl Coverage.add ⟨0, []⟩

@[simp] theorem coverageOf_snoc (trace : List GameEntry) (entry : GameEntry) :
    coverageOf (trace ++ [entry]) = (coverageOf trace).add entry := by
  simp [coverageOf]

/-- A request covers delivered positions only. -/
def CoversDelivered (before : List GameEntry) : GameEntry → Prop
  | .ackSent request => ∀ p, (coverageOf before).base ≤ p → p < request.consumedTail.toNat →
    p ∈ (coverageOf before).delivered
  | _ => True

/-- Every request of the trace covers delivered positions only. -/
def AcksDelivered (trace : List GameEntry) : Prop :=
  Traces.Justified CoversDelivered trace

/-! ## The invariant -/

/-- The delivered positions are those from the base to the local tail. -/
structure Covered (c : GameClient) : Prop where
  base_le : (coverageOf c.trace).base ≤ c.localTail.toNat
  delivered : (coverageOf c.trace).delivered = List.range' (coverageOf c.trace).base
    (c.localTail.toNat - (coverageOf c.trace).base)
  acks : AcksDelivered c.trace

namespace Covered

variable {c c' : GameClient}

theorem create : Covered .create where
  base_le := Nat.le_refl _
  delivered := rfl
  acks := Traces.justified_nil

/-- An entry that changes neither the coverage nor the local tail. -/
private theorem log (h : Covered c) {entry : GameEntry} (htail : c'.localTail = c.localTail)
    (htrace : c'.trace = c.trace ++ [entry])
    (hadd : ∀ coverage : Coverage, coverage.add entry = coverage)
    (hcovers : CoversDelivered c.trace entry) : Covered c' := by
  have hcoverage : coverageOf c'.trace = coverageOf c.trace := by
    rw [htrace, coverageOf_snoc, hadd]
  constructor
  case base_le =>
    rw [hcoverage, htail]
    exact h.base_le
  case delivered =>
    rw [hcoverage, htail]
    exact h.delivered
  case acks =>
    rw [htrace]
    exact h.acks.snoc hcovers

/-- A history that begins with this tail. -/
private theorem restart (h : Covered c) {entry : GameEntry} {tail : UInt64}
    (htail : c'.localTail = tail) (htrace : c'.trace = c.trace ++ [entry])
    (hadd : ∀ coverage : Coverage, coverage.add entry = ⟨tail.toNat, []⟩)
    (hcovers : CoversDelivered c.trace entry) : Covered c' := by
  have hcoverage : coverageOf c'.trace = ⟨tail.toNat, []⟩ := by
    rw [htrace, coverageOf_snoc, hadd]
  constructor
  case base_le => rw [hcoverage, htail]
  case delivered => simp [hcoverage, htail]
  case acks =>
    rw [htrace]
    exact h.acks.snoc hcovers

/-- The new positions go on with the delivered ones. -/
theorem deliver (h : Covered c) {head : UInt64} {records : List Record} (expected : UInt64)
    (hle : c.localTail ≤ head) (hlength : records.length = (head - c.localTail).toNat) :
    Covered (GameClient.log { c with localTail := head, expectedSequence := expected }
      (.delivered c.localTail records)) := by
  have hle' : c.localTail.toNat ≤ head.toNat := UInt64.le_iff_toNat_le.1 hle
  have hbase := h.base_le
  rw [UInt64.toNat_sub_of_le _ _ hle] at hlength
  constructor
  case base_le =>
    simp only [GameClient.log, coverageOf_snoc, Coverage.add]
    omega
  case delivered =>
    simp only [GameClient.log, coverageOf_snoc, Coverage.add]
    rw [h.delivered, hlength]
    have hstart : c.localTail.toNat = (coverageOf c.trace).base +
        (c.localTail.toNat - (coverageOf c.trace).base) := by omega
    have hcount : head.toNat - (coverageOf c.trace).base =
        (c.localTail.toNat - (coverageOf c.trace).base) +
          (head.toNat - c.localTail.toNat) := by omega
    rw [hcount, ← List.range'_append_1, ← hstart]
  case acks => exact h.acks.snoc trivial

/-- The local tail covers what has been delivered. -/
theorem covers_ackRequest (h : Covered c) : CoversDelivered c.trace (.ackSent c.ackRequest) := by
  intro p hbase hlt
  rw [consumedTail_ackRequest] at hlt
  rw [h.delivered, List.mem_range'_1]
  omega

theorem move (h : Covered c) (hmove : GameMove c c') : Covered c' := by
  cases hmove with
  | store => exact ⟨h.base_le, h.delivered, h.acks⟩
  | clearFault hactive => exact ⟨h.base_le, h.delivered, h.acks⟩
  | fault error hnamed => exact h.log rfl rfl (fun _ => rfl) trivial
  | disconnect => exact h.restart rfl rfl (fun _ => rfl) trivial
  | activate a header hbounds hheader => exact h.restart rfl rfl (fun _ => rfl) trivial
  | deliver head records expected hactive hle hlength =>
    exact h.deliver expected hle hlength
  | sendAck hactive => exact h.log rfl rfl (fun _ => rfl) h.covers_ackRequest
  | acknowledge hactive => exact h.log rfl rfl (fun _ => rfl) trivial

end Covered

theorem covered_run {calls : List GameCall} {c : GameClient}
    (hrun : gameMachine.run .create calls = some c) : Covered c :=
  game_invariant .create (fun _ _ h hmove => h.move hmove) hrun

end Hfior
