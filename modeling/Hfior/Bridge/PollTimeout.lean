import Mathlib.Algebra.Order.Floor.Defs
import Mathlib.Data.Rat.Floor

/-!
# The poll timeout of the main loop

A `--duration` option sets a stop deadline at the end of the start barrier,
and the main loop passes the time that remains to `poll`.

A `double` is `Double`.  Rounding, and the conversion of a value that
`uint64_t` does not hold, which C leaves undefined, are the parameter
`DoubleOps`, and all results hold for each of them.

`FollowsDeadline` is what the timeout is for.  The loop narrows the number of
milliseconds to an `int` before it compares, so the timeout is
`narrowedTimeout`, which stays within the remaining time
(`narrowedTimeout_le`) and is the wanted one in one half of every 2^32
milliseconds (`NarrowsAlike`).
-/

namespace Hfior

/-! ## The deadline -/

/-- A value of the C type `double`. -/
inductive Double where
  | finite (value : ℚ)
  | infinity (negative : Bool)
  | nan
deriving DecidableEq

namespace Double

/-- `value < 0.0`. -/
def isNegative : Double → Bool
  | .finite value => value < 0
  | .infinity negative => negative
  | .nan => false

/-- `value > 0.0`. -/
def isPositive : Double → Bool
  | .finite value => 0 < value
  | .infinity negative => !negative
  | .nan => false

end Double

/-- What the program takes from the arithmetic of the machine. -/
structure DoubleOps where
  /-- The result of an operation with the given exact value. -/
  round : ℚ → Double
  /-- A conversion to `uint64_t` that is out of range. -/
  undefinedU64 : Double → UInt64

namespace DoubleOps

/-- `value * 1e9`. -/
def timesBillion (ops : DoubleOps) : Double → Double
  | .finite value => ops.round (value * 1000000000)
  | value => value

/-- `(uint64_t)value`, which drops the fraction. -/
def toU64 (ops : DoubleOps) (value : Double) : UInt64 :=
  match value with
  | .finite v =>
    if -1 < v ∧ v < 2 ^ 64 then UInt64.ofNat v.floor.toNat else ops.undefinedU64 value
  | _ => ops.undefinedU64 value

/-- An arithmetic that does not round. -/
def exact : DoubleOps := ⟨.finite, fun _ => 0⟩

end DoubleOps

/-- What `strtod` leaves: its value, and whether `errno` is set and whether
it has read the whole text. -/
structure ParsedText where
  value : Double
  errno : Bool
  atEnd : Bool
deriving DecidableEq

/-- A duration that the option parser admits. -/
structure DurationOption where
  value : Double
  admitted : value.isNegative = false
deriving DecidableEq

/-- `parse_double`, where `none` is `exit(2)`. -/
def parseDouble (text : ParsedText) : Option DurationOption :=
  if text.errno || !text.atEnd then none
  else if h : text.value.isNegative = false then some ⟨text.value, h⟩
  else none

/-- The value of `stop_deadline_ns` behind the start barrier.  Zero is no
deadline. -/
def stopDeadlineNs (ops : DoubleOps) (duration : DurationOption) (startedNs : UInt64) :
    UInt64 :=
  if duration.value.isPositive then
    startedNs + ops.toU64 (ops.timesBillion duration.value)
  else 0

/-! ## The timeout -/

/-- The test at the head of the main loop. -/
def deadlineReached (deadlineNs nowNs : UInt64) : Bool :=
  deadlineNs != 0 && nowNs ≥ deadlineNs

/-- The local `remaining` of the main loop. -/
def remainingNs (deadlineNs nowNs : UInt64) : UInt64 :=
  if deadlineNs > nowNs then deadlineNs - nowNs else 0

/-- The local `remaining_ms` of the main loop: an `int`. -/
def remainingMs (deadlineNs nowNs : UInt64) : Int32 :=
  (remainingNs deadlineNs nowNs / 1000000).toUInt32.toInt32

/-- The timeout that the main loop passes to `poll`. -/
def pollTimeoutMs (deadlineNs nowNs : UInt64) : Int32 :=
  if deadlineNs != 0 then
    if remainingMs deadlineNs nowNs < 100 then
      if remainingMs deadlineNs nowNs > 0 then remainingMs deadlineNs nowNs else 0
    else 100
  else 100

/-! ## What the timeout is for -/

/-- A timeout in milliseconds follows the remaining nanoseconds. -/
structure FollowsDeadline (remaining : Nat) (timeout : Int) : Prop where
  eq_min : timeout = (min 100 (remaining / 1000000) : Nat)
  nonneg : 0 ≤ timeout
  within : timeout * 1000000 ≤ remaining
  sleeps : 1000000 ≤ remaining → timeout ≠ 0

/-- The minimum says it all. -/
theorem followsDeadline_iff {remaining : Nat} {timeout : Int} :
    FollowsDeadline remaining timeout ↔
      timeout = (min 100 (remaining / 1000000) : Nat) := by
  constructor
  · exact FollowsDeadline.eq_min
  · intro h
    constructor
    case eq_min => exact h
    all_goals omega

/-- The timeout that comes out of the narrowing of `ms` milliseconds. -/
def narrowedTimeout (ms : Nat) : Int := max 0 (min 100 (Int.bmod ms 4294967296))

/-- The narrowing of `ms` milliseconds does not change the timeout: they are
below the cap, or the low 32 bits are at or above it and not negative. -/
def NarrowsAlike (ms : Nat) : Prop :=
  ms < 100 ∨ 100 ≤ ms % 4294967296 ∧ ms % 4294967296 < 2147483648

/-- An `int` holds the low 32 bits. -/
theorem bmod_low_bits (ms : Nat) : Int.bmod ms 4294967296 =
    if ms % 4294967296 < 2147483648 then (ms % 4294967296 : Int)
    else (ms % 4294967296 : Int) - 4294967296 := by
  rw [Int.bmod_def]
  split <;> split <;> omega

/-- Narrowing never makes the timeout longer. -/
theorem narrowedTimeout_le (ms : Nat) :
    0 ≤ narrowedTimeout ms ∧ narrowedTimeout ms ≤ min 100 ms := by
  have hlow := bmod_low_bits ms
  unfold narrowedTimeout
  generalize Int.bmod ms 4294967296 = narrowed at hlow ⊢
  have hmod : ms % 4294967296 ≤ ms := Nat.mod_le _ _
  split at hlow <;> omega

theorem narrowedTimeout_eq_iff (ms : Nat) :
    narrowedTimeout ms = (min 100 ms : Nat) ↔ NarrowsAlike ms := by
  have hlow := bmod_low_bits ms
  unfold narrowedTimeout NarrowsAlike
  generalize Int.bmod ms 4294967296 = narrowed at hlow ⊢
  constructor
  · intro h
    split at hlow <;> omega
  · intro h
    split at hlow <;> omega

/-! ## The timeout of the code -/

section
variable {deadlineNs nowNs : UInt64}

theorem remainingNs_toNat (h : nowNs < deadlineNs) :
    (remainingNs deadlineNs nowNs).toNat = deadlineNs.toNat - nowNs.toNat := by
  rw [remainingNs, if_pos h,
    UInt64.toNat_sub_of_le _ _ (UInt64.le_of_lt h)]

/-- The `int` holds the low 32 bits of the milliseconds. -/
theorem remainingMs_toInt (deadlineNs nowNs : UInt64) :
    (remainingMs deadlineNs nowNs).toInt =
      Int.bmod ((remainingNs deadlineNs nowNs).toNat / 1000000 : Nat) 4294967296 := by
  rw [remainingMs, ← Int32.toInt_toBitVec, UInt32.toBitVec_toInt32,
    BitVec.toInt_eq_toNat_bmod, UInt32.toNat_toBitVec, UInt64.toNat_toUInt32,
    Int.natCast_emod]
  exact Int.emod_bmod _ _

theorem ne_zero_of_lt (h : nowNs < deadlineNs) : (deadlineNs != 0) = true := by
  rw [bne_iff_ne]
  rintro rfl
  exact UInt64.not_lt_zero h

/-- The timeout is the narrowed one. -/
theorem pollTimeoutMs_toInt (h : nowNs < deadlineNs) :
    (pollTimeoutMs deadlineNs nowNs).toInt =
      narrowedTimeout ((deadlineNs.toNat - nowNs.toNat) / 1000000) := by
  have hms := remainingMs_toInt deadlineNs nowNs
  rw [remainingNs_toNat h] at hms
  unfold narrowedTimeout
  rw [← hms, pollTimeoutMs, if_pos (ne_zero_of_lt h)]
  have hcap : (100 : Int32).toInt = 100 := rfl
  have hzero : (0 : Int32).toInt = 0 := rfl
  split
  · rename_i hsmall
    rw [Int32.lt_iff_toInt_lt, hcap] at hsmall
    split
    · rename_i hpos
      rw [gt_iff_lt, Int32.lt_iff_toInt_lt, hzero] at hpos
      omega
    · rename_i hneg
      rw [gt_iff_lt, Int32.lt_iff_toInt_lt, hzero] at hneg
      omega
  · rename_i hlarge
    rw [Int32.lt_iff_toInt_lt, hcap] at hlarge
    omega

/-- A poll that ends with its timeout ends before the deadline, also where
the narrowing changes the timeout. -/
theorem poll_within_deadline (hdeadline : deadlineNs ≠ 0)
    (hgoes : deadlineReached deadlineNs nowNs = false) :
    0 ≤ (pollTimeoutMs deadlineNs nowNs).toInt ∧
      nowNs.toNat + (pollTimeoutMs deadlineNs nowNs).toInt * 1000000 ≤ deadlineNs.toNat := by
  have h : nowNs < deadlineNs := by
    rw [deadlineReached, bne_iff_ne.2 hdeadline, Bool.true_and, decide_eq_false_iff_not] at hgoes
    exact UInt64.not_le.1 hgoes
  have hle := narrowedTimeout_le ((deadlineNs.toNat - nowNs.toNat) / 1000000)
  have hlt := UInt64.lt_iff_toNat_lt.1 h
  rw [pollTimeoutMs_toInt h]
  omega

end

/-- For every duration, start and clock before the deadline, the timeout
follows the deadline if and only if the narrowing does not change it. -/
theorem poll_timeout_follows_iff (ops : DoubleOps) (duration : DurationOption)
    (startedNs nowNs : UInt64) (hbefore : nowNs < stopDeadlineNs ops duration startedNs) :
    FollowsDeadline ((stopDeadlineNs ops duration startedNs).toNat - nowNs.toNat)
        (pollTimeoutMs (stopDeadlineNs ops duration startedNs) nowNs).toInt ↔
      NarrowsAlike
        (((stopDeadlineNs ops duration startedNs).toNat - nowNs.toNat) / 1000000) := by
  rw [followsDeadline_iff, pollTimeoutMs_toInt hbefore]
  exact narrowedTimeout_eq_iff _

/-- A run of five seconds, half a second before its end. -/
theorem poll_timeout_follows_five :
    FollowsDeadline ((5000000007 : UInt64).toNat - (4500000007 : UInt64).toNat)
      (pollTimeoutMs 5000000007 4500000007).toInt := by
  have hdeadline : stopDeadlineNs .exact ⟨.finite 5, by decide⟩ 7 = 5000000007 := by
    decide +kernel
  have hiff := poll_timeout_follows_iff .exact ⟨.finite 5, by decide⟩ 7 4500000007
    (by rw [hdeadline]; decide)
  rw [hdeadline] at hiff
  exact hiff.2 (.inr (by decide))

/-- A duration of 2147484 seconds: the loop polls with a timeout of zero,
25 days before the deadline. -/
theorem poll_timeout_busy :
    parseDouble ⟨.finite 2147484, false, true⟩ = some ⟨.finite 2147484, by decide⟩ ∧
      7 < stopDeadlineNs .exact ⟨.finite 2147484, by decide⟩ 7 ∧
      pollTimeoutMs (stopDeadlineNs .exact ⟨.finite 2147484, by decide⟩ 7) 7 = 0 ∧
      ¬ FollowsDeadline
        ((stopDeadlineNs .exact ⟨.finite 2147484, by decide⟩ 7).toNat - (7 : UInt64).toNat)
        (pollTimeoutMs (stopDeadlineNs .exact ⟨.finite 2147484, by decide⟩ 7) 7).toInt := by
  have hdeadline : stopDeadlineNs .exact ⟨.finite 2147484, by decide⟩ 7 =
      2147484000000007 := by
    decide +kernel
  rw [hdeadline]
  refine ⟨by decide, by decide, by decide, ?_⟩
  intro h
  have hmin := h.eq_min
  revert hmin
  decide

end Hfior
