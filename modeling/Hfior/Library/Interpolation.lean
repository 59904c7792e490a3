import Mathlib.Algebra.Order.Floor.Semiring
import Mathlib.Tactic.Linarith
import Mathlib.Tactic.Ring

/-!
# Linear interpolation of a sequence

`lerp a x` is the value at `x` of the line through the points `(n, a n)` and
`(n + 1, a (n + 1))`, where `n` is the floor of `x`.

For a nondecreasing sequence the value is between its two neighbours
(`lerp_between`), and it is nondecreasing in `x` across the joins of the
lines (`lerp_mono`).  `lerp_ceil` has the ceiling of `x` in the place of
`n + 1`.
-/

namespace Interpolation

variable {K : Type*} [Field K] [LinearOrder K] [IsStrictOrderedRing K] [FloorSemiring K]

/-- The part of `x` behind its floor. -/
def fraction (x : K) : K := x - ⌊x⌋₊

def lerp (a : ℕ → K) (x : K) : K :=
  a ⌊x⌋₊ * (1 - fraction x) + a (⌊x⌋₊ + 1) * fraction x

variable {a : ℕ → K} {x y : K}

theorem fraction_nonneg (hx : 0 ≤ x) : 0 ≤ fraction x :=
  sub_nonneg.2 (Nat.floor_le hx)

theorem fraction_le_one (x : K) : fraction x ≤ 1 := by
  have hlt := Nat.lt_floor_add_one x
  unfold fraction
  linarith

omit [IsStrictOrderedRing K] in
/-- The value as a point of its line. -/
theorem lerp_eq (a : ℕ → K) (x : K) :
    lerp a x = a ⌊x⌋₊ + (a (⌊x⌋₊ + 1) - a ⌊x⌋₊) * fraction x := by
  unfold lerp
  ring

/-- Behind a whole number there is no part left for the upper end, and before
the next one the ceiling is that end. -/
theorem lerp_ceil (a : ℕ → K) (hx : 0 ≤ x) :
    a ⌊x⌋₊ * (1 - fraction x) + a ⌈x⌉₊ * fraction x = lerp a x := by
  rcases (Nat.floor_le_ceil x).eq_or_lt with hwhole | hbetween
  · have hceil : x ≤ ⌈x⌉₊ := Nat.le_ceil x
    have hfloor : (⌊x⌋₊ : K) ≤ x := Nat.floor_le hx
    have hnone : fraction x = 0 := by
      rw [← hwhole] at hceil
      unfold fraction
      linarith
    unfold lerp
    rw [hnone, mul_zero, mul_zero]
  · have hnext : ⌈x⌉₊ = ⌊x⌋₊ + 1 :=
      le_antisymm (Nat.ceil_le_floor_add_one x) hbetween
    rw [hnext, lerp]

section Monotone

variable (ha : Monotone a)
include ha

omit [FloorSemiring K] in
theorem rise_nonneg (n : ℕ) : 0 ≤ a (n + 1) - a n :=
  sub_nonneg.2 (ha n.le_succ)

/-- The value is between its two neighbours. -/
theorem lerp_between (hx : 0 ≤ x) : a ⌊x⌋₊ ≤ lerp a x ∧ lerp a x ≤ a (⌊x⌋₊ + 1) := by
  have hpart : 0 ≤ (a (⌊x⌋₊ + 1) - a ⌊x⌋₊) * fraction x :=
    mul_nonneg (rise_nonneg ha _) (fraction_nonneg hx)
  have hwhole : (a (⌊x⌋₊ + 1) - a ⌊x⌋₊) * fraction x ≤ (a (⌊x⌋₊ + 1) - a ⌊x⌋₊) * 1 :=
    mul_le_mul_of_nonneg_left (fraction_le_one x) (rise_nonneg ha _)
  rw [lerp_eq]
  constructor <;> linarith

/-- On one line the slope decides, and from one line to a later one the join
between them. -/
theorem lerp_mono (hx : 0 ≤ x) (hxy : x ≤ y) : lerp a x ≤ lerp a y := by
  have hfloor : ⌊x⌋₊ ≤ ⌊y⌋₊ := Nat.floor_mono hxy
  rcases hfloor.eq_or_lt with hline | hlater
  · have hpart : fraction x ≤ fraction y := by
      unfold fraction
      rw [hline]
      exact sub_le_sub_right hxy _
    rw [lerp_eq, lerp_eq, ← hline]
    have hrise := mul_le_mul_of_nonneg_left hpart (rise_nonneg ha ⌊x⌋₊)
    linarith
  · calc lerp a x ≤ a (⌊x⌋₊ + 1) := (lerp_between ha hx).2
      _ ≤ a ⌊y⌋₊ := ha hlater
      _ ≤ lerp a y := (lerp_between ha (hx.trans hxy)).1

end Monotone

end Interpolation
