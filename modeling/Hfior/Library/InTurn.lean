import Mathlib.Logic.Function.Basic

/-!
# Workers that finish consecutive positions in turn

Some workers take the positions of a queue, each at most one at a time.
`Holds held lo hi` says that the positions from `lo` up to, and without,
`hi` are the ones in work, and that no two workers have the same.

A worker whose position is the least one in work has position `lo`, which
is `Holds.eq_low`.  So if every worker finishes in turn, the positions are
finished in the order in which they were taken.
-/

/-- The positions in work are the ones from `lo` up to, and without, `hi`. -/
structure Holds {ι : Type*} (held : ι → Option Nat) (lo hi : Nat) : Prop where
  le : lo ≤ hi
  held_iff : ∀ p, (∃ i, held i = some p) ↔ lo ≤ p ∧ p < hi
  distinct : ∀ i j p, held i = some p → held j = some p → i = j

namespace Holds

variable {ι : Type*} {held : ι → Option Nat} {lo hi p : Nat} {i : ι}

/-- No worker has a position. -/
theorem idle (h : ∀ i, held i = none) : Holds held lo lo where
  le := Nat.le_refl lo
  held_iff p := by
    constructor
    · rintro ⟨i, hi⟩
      rw [h i] at hi
      cases hi
    · rintro ⟨hlo, hhi⟩
      omega
  distinct i j p hi := by
    rw [h i] at hi
    cases hi

/-- Once no worker has a position, nothing is in work. -/
theorem eq_of_idle (h : Holds held lo hi) (hidle : ∀ i, held i = none) :
    lo = hi := by
  by_contra hne
  have hle := h.le
  obtain ⟨i, hi⟩ := (h.held_iff lo).2 ⟨Nat.le_refl lo, by omega⟩
  rw [hidle i] at hi
  cases hi

theorem bounds (h : Holds held lo hi) (hp : held i = some p) : lo ≤ p ∧ p < hi :=
  (h.held_iff p).1 ⟨i, hp⟩

/-- The least position in work is the first one. -/
theorem eq_low (h : Holds held lo hi) (hp : held i = some p)
    (hturn : ∀ j q, held j = some q → p ≤ q) : p = lo := by
  have hbounds := h.bounds hp
  obtain ⟨j, hj⟩ := (h.held_iff lo).2 ⟨Nat.le_refl lo, by omega⟩
  have := hturn j lo hj
  omega

variable [DecidableEq ι]

/-- A worker without a position takes the next one. -/
theorem take (h : Holds held lo hi) (hnone : held i = none) :
    Holds (Function.update held i (some hi)) lo (hi + 1) where
  le := Nat.le_succ_of_le h.le
  held_iff p := by
    have hle := h.le
    constructor
    · rintro ⟨j, hj⟩
      by_cases hji : j = i
      · rw [hji, Function.update_self] at hj
        cases hj
        omega
      · rw [Function.update_of_ne hji] at hj
        have := h.bounds hj
        omega
    · rintro ⟨hlo, hhi⟩
      rcases Nat.lt_succ_iff_lt_or_eq.1 hhi with hlt | rfl
      · obtain ⟨j, hj⟩ := (h.held_iff p).2 ⟨hlo, hlt⟩
        have hji : j ≠ i := by
          rintro rfl
          rw [hnone] at hj
          cases hj
        exact ⟨j, by rw [Function.update_of_ne hji, hj]⟩
      · exact ⟨i, Function.update_self ..⟩
  distinct j k p hj hk := by
    by_cases hji : j = i
    · by_cases hki : k = i
      · rw [hji, hki]
      · rw [hji, Function.update_self] at hj
        rw [Function.update_of_ne hki] at hk
        cases hj
        have := h.bounds hk
        omega
    · rw [Function.update_of_ne hji] at hj
      by_cases hki : k = i
      · rw [hki, Function.update_self] at hk
        cases hk
        have := h.bounds hj
        omega
      · rw [Function.update_of_ne hki] at hk
        exact h.distinct j k p hj hk

/-- The worker of the first position is done with it. -/
theorem release (h : Holds held lo hi) (hlo : held i = some lo) :
    Holds (Function.update held i none) (lo + 1) hi where
  le := (h.bounds hlo).2
  held_iff p := by
    constructor
    · rintro ⟨j, hj⟩
      by_cases hji : j = i
      · rw [hji, Function.update_self] at hj
        cases hj
      · rw [Function.update_of_ne hji] at hj
        have hbounds := h.bounds hj
        have hne : p ≠ lo := by
          rintro rfl
          exact hji (h.distinct j i p hj hlo)
        omega
    · rintro ⟨hlt, hhi⟩
      obtain ⟨j, hj⟩ := (h.held_iff p).2 ⟨by omega, hhi⟩
      have hji : j ≠ i := by
        rintro rfl
        rw [hlo] at hj
        cases hj
        omega
      exact ⟨j, by rw [Function.update_of_ne hji, hj]⟩
  distinct j k p hj hk := by
    have hkept : ∀ j, Function.update held i none j = some p → held j = some p := by
      intro j hj
      by_cases hji : j = i
      · rw [hji, Function.update_self] at hj
        cases hj
      · rwa [Function.update_of_ne hji] at hj
    exact h.distinct j k p (hkept j hj) (hkept k hk)

end Holds
