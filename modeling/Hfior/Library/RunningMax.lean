import Mathlib.Algebra.Order.Ring.Nat
import Mathlib.Data.List.Chain

/-!
# Running maxima

Numbers are read one after the other behind a first number `m`, and the
greatest one so far is kept.  `late` counts the numbers that are not above
it, and `skipped` counts the numbers that it jumps over.

`skipped_add` is the balance of the two counters.  They are both zero for
consecutive numbers only (`skipped_late_eq_zero_iff`), and `late` is zero for
ascending numbers only (`late_eq_zero_iff`).
-/

namespace RunningMax

/-- The greatest number. -/
def runningMax (m : Nat) (xs : List Nat) : Nat := xs.foldl max m

/-- One number is not above the maximum. -/
def lateStep (m x : Nat) : Nat := if x ≤ m then 1 else 0

/-- The numbers strictly between the maximum and the next one. -/
def skippedStep (m x : Nat) : Nat := x - m - 1

def late : Nat → List Nat → Nat
  | _, [] => 0
  | m, x :: xs => lateStep m x + late (max m x) xs

def skipped : Nat → List Nat → Nat
  | _, [] => 0
  | m, x :: xs => skippedStep m x + skipped (max m x) xs

variable {m : Nat} {xs : List Nat}

/-- Behind an ascending number the maximum is that number. -/
theorem max_step {x : Nat} (h : m < x) : max m x = x := Nat.max_eq_right (Nat.le_of_lt h)

theorem lateStep_eq_zero_iff {x : Nat} : lateStep m x = 0 ↔ m < x := by
  unfold lateStep
  split <;> omega

theorem step_balance (m x : Nat) :
    skippedStep m x + 1 + m = max m x + lateStep m x := by
  unfold skippedStep lateStep
  split <;> omega

/-- Every number either moves the maximum, by itself and what it skips, or it
is late. -/
theorem skipped_add (m : Nat) (xs : List Nat) :
    skipped m xs + xs.length + m = runningMax m xs + late m xs := by
  induction xs generalizing m with
  | nil => exact (Nat.zero_add _)
  | cons x xs ih =>
    have hstep := step_balance m x
    have hrest := ih (max m x)
    have hmax : runningMax m (x :: xs) = runningMax (max m x) xs := rfl
    rw [skipped, late, hmax, List.length_cons]
    omega

theorem late_le_length (m : Nat) (xs : List Nat) : late m xs ≤ xs.length := by
  induction xs generalizing m with
  | nil => exact Nat.le_refl _
  | cons x xs ih =>
    have hrest := ih (max m x)
    have hstep : lateStep m x ≤ 1 := by
      unfold lateStep
      split <;> omega
    rw [late, List.length_cons]
    omega

/-- The maximum is one of the numbers, and none is above it. -/
theorem runningMax_spec (m : Nat) (xs : List Nat) :
    runningMax m xs ∈ m :: xs ∧ ∀ x ∈ m :: xs, x ≤ runningMax m xs := by
  induction xs generalizing m with
  | nil =>
    refine ⟨List.mem_cons_self, ?_⟩
    intro x hx
    rw [List.mem_singleton.1 hx]
    exact Nat.le_refl _
  | cons y xs ih =>
    obtain ⟨hmem, hle⟩ := ih (max m y)
    have hmax : runningMax m (y :: xs) = runningMax (max m y) xs := rfl
    have hstart := hle (max m y) List.mem_cons_self
    rw [hmax]
    constructor
    · rcases List.mem_cons.1 hmem with heq | hin
      · rw [heq]
        rcases Nat.le_total m y with hmy | hym
        · rw [Nat.max_eq_right hmy]
          exact List.mem_cons_of_mem _ List.mem_cons_self
        · rw [Nat.max_eq_left hym]
          exact List.mem_cons_self
      · exact List.mem_cons_of_mem _ (List.mem_cons_of_mem _ hin)
    · intro x hx
      rcases List.mem_cons.1 hx with rfl | hx
      · omega
      rcases List.mem_cons.1 hx with rfl | hx
      · omega
      · exact hle x (List.mem_cons_of_mem _ hx)

/-- No number is late if and only if the numbers ascend. -/
theorem late_eq_zero_iff (m : Nat) (xs : List Nat) :
    late m xs = 0 ↔ (m :: xs).IsChain (· < ·) := by
  induction xs generalizing m with
  | nil => simp [late]
  | cons x xs ih =>
    rw [late, List.isChain_cons_cons, Nat.add_eq_zero_iff]
    constructor
    · rintro ⟨hstep, hrest⟩
      have hlt : m < x := lateStep_eq_zero_iff.1 hstep
      rw [max_step hlt] at hrest
      exact ⟨hlt, (ih x).1 hrest⟩
    · rintro ⟨hlt, hrest⟩
      rw [max_step hlt]
      exact ⟨lateStep_eq_zero_iff.2 hlt, (ih x).2 hrest⟩

/-- The maximum of ascending numbers is the last one. -/
theorem runningMax_of_ascending (h : (m :: xs).IsChain (· < ·)) :
    runningMax m xs = (m :: xs).getLast (List.cons_ne_nil _ _) := by
  induction xs generalizing m with
  | nil => rfl
  | cons x xs ih =>
    obtain ⟨hlt, hrest⟩ := List.isChain_cons_cons.1 h
    have hmax : runningMax m (x :: xs) = runningMax x xs := by
      rw [runningMax, List.foldl_cons, max_step hlt]
      rfl
    rw [hmax, ih hrest]
    rfl

/-- Nothing is skipped and no number is late if and only if the numbers are
consecutive. -/
theorem skipped_late_eq_zero_iff (m : Nat) (xs : List Nat) :
    skipped m xs = 0 ∧ late m xs = 0 ↔ (m :: xs).IsChain fun x y => y = x + 1 := by
  induction xs generalizing m with
  | nil => simp [skipped, late]
  | cons x xs ih =>
    rw [skipped, late, List.isChain_cons_cons, Nat.add_eq_zero_iff, Nat.add_eq_zero_iff]
    constructor
    · rintro ⟨⟨hskip, hskips⟩, hstep, hlates⟩
      have hlt : m < x := lateStep_eq_zero_iff.1 hstep
      unfold skippedStep at hskip
      rw [max_step hlt] at hskips hlates
      exact ⟨by omega, (ih x).1 ⟨hskips, hlates⟩⟩
    · rintro ⟨hnext, hrest⟩
      have hlt : m < x := by omega
      obtain ⟨hskips, hlates⟩ := (ih x).2 hrest
      rw [max_step hlt]
      refine ⟨⟨?_, hskips⟩, lateStep_eq_zero_iff.2 hlt, hlates⟩
      unfold skippedStep
      omega

/-- A number that comes again and again is late each time. -/
theorem late_replicate (m n : Nat) : late m (List.replicate n m) = n := by
  induction n with
  | zero => rfl
  | succ n ih =>
    rw [List.replicate_succ, late, lateStep, if_pos (Nat.le_refl _), Nat.max_self, ih]
    omega

end RunningMax
