import Mathlib.Algebra.Order.Ring.Nat
import Mathlib.Data.List.Basic

/-!
# Bisection of a sorted list

`bisectRight xs x` is the position behind the entries that are at most `x`.
The loop halves the interval `lo ≤ i < hi`, and everything in front of the
interval is at most `x` and everything behind it is greater.

`bisectRight_spec` says on a sorted list what is in front of the position and
what is behind it.
-/

namespace Bisect

variable {α : Type*} [LinearOrder α] {xs : List α} {x : α}

/-- The loop of the bisection, on an interval of the list. -/
def bisectRightLoop (xs : List α) (x : α) (lo hi : Nat) (h : hi ≤ xs.length) : Nat :=
  if hlt : lo < hi then
    if x < xs[(lo + hi) / 2] then bisectRightLoop xs x lo ((lo + hi) / 2) (by omega)
    else bisectRightLoop xs x ((lo + hi) / 2 + 1) hi h
  else lo
termination_by hi - lo

/-- The position behind the entries that are at most `x`. -/
def bisectRight (xs : List α) (x : α) : Nat := bisectRightLoop xs x 0 xs.length (Nat.le_refl _)

/-- The interval ends at a position that separates the list. -/
theorem bisectRightLoop_spec (hsorted : xs.Pairwise (· ≤ ·)) {lo hi : Nat} (h : hi ≤ xs.length)
    (hle : lo ≤ hi) (hbelow : ∀ i, (hi : i < xs.length) → i < lo → xs[i] ≤ x)
    (habove : ∀ i, (hi' : i < xs.length) → hi ≤ i → x < xs[i]) :
    bisectRightLoop xs x lo hi h ≤ xs.length ∧
    (∀ i, (hi' : i < xs.length) → i < bisectRightLoop xs x lo hi h → xs[i] ≤ x) ∧
    ∀ i, (hi' : i < xs.length) → bisectRightLoop xs x lo hi h ≤ i → x < xs[i] := by
  have hmono : ∀ i j, (hi : i < xs.length) → (hj : j < xs.length) → i ≤ j → xs[i] ≤ xs[j] := by
    intro i j hi hj hij
    rcases Nat.eq_or_lt_of_le hij with rfl | hlt
    · exact le_rfl
    · exact List.pairwise_iff_getElem.1 hsorted i j hi hj hlt
  fun_induction bisectRightLoop xs x lo hi h with
  | case1 lo hi h hlt hless ih =>
    refine ih (by omega) hbelow ?_
    intro i hi' hge
    exact lt_of_lt_of_le hless (hmono _ i (by omega) hi' hge)
  | case2 lo hi h hlt hless ih =>
    refine ih (by omega) ?_ habove
    intro i hi' hi
    exact le_trans (hmono i _ hi' (by omega) (by omega)) (not_lt.1 hless)
  | case3 lo hi h hlt =>
    have heq : lo = hi := by omega
    exact ⟨by omega, hbelow, heq ▸ habove⟩

theorem bisectRight_spec (hsorted : xs.Pairwise (· ≤ ·)) :
    bisectRight xs x ≤ xs.length ∧
    (∀ i, (hi : i < xs.length) → i < bisectRight xs x → xs[i] ≤ x) ∧
    ∀ i, (hi : i < xs.length) → bisectRight xs x ≤ i → x < xs[i] :=
  bisectRightLoop_spec hsorted (Nat.le_refl _) (Nat.zero_le _)
    (fun i _ hi => absurd hi (Nat.not_lt_zero i)) (fun _ hi hge => absurd hi (Nat.not_lt.2 hge))

end Bisect
