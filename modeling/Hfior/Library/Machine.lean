import Mathlib.Order.Basic

/-!
# Machines with labelled steps

A `Machine σ α` is a partial step function: `step s a = none` says that the
label `a` is not enabled in the state `s`.  A label carries every choice of
the environment, so a step is a function and a run can be evaluated.

There are four groups.

* Runs.  `run` follows a list of labels, and `run_append` cuts a run.
* Invariants.  `run_invariant` is the induction over a run.
  `run_invariant_below` is the same induction for an invariant that holds
  only while a growing measure stays below a bound, which is the form that
  a machine with wrapping counters needs.
* Guards.  `guard` cuts a machine down to the steps that meet a condition,
  and a run of the guarded machine is a run of the machine.
* Lockstep.  `run_lockstep` follows a run in a second machine under the same
  labels.
-/

/-- A machine whose steps carry labels. -/
structure Machine (σ α : Type*) where
  /-- The state after the label, if the label is enabled. -/
  step : σ → α → Option σ

namespace Machine

variable {σ α : Type*} {m : Machine σ α} {s t u : σ} {a : α} {as bs : List α}

/-! ## Runs -/

/-- The state after a list of labels, if every one of them is enabled. -/
def run (m : Machine σ α) : σ → List α → Option σ
  | s, [] => some s
  | s, a :: as => match m.step s a with
    | none => none
    | some t => m.run t as

@[simp] theorem run_nil : m.run s [] = some s := rfl

theorem run_cons :
    m.run s (a :: as) = some u ↔
      ∃ t, m.step s a = some t ∧ m.run t as = some u := by
  rw [run]
  cases m.step s a with
  | none => simp
  | some t => simp

theorem run_append :
    m.run s (as ++ bs) = some u ↔
      ∃ t, m.run s as = some t ∧ m.run t bs = some u := by
  induction as generalizing s with
  | nil => simp
  | cons a as ih =>
    simp only [List.cons_append, run_cons, ih]
    constructor
    · rintro ⟨r, hr, t, ht, hu⟩
      exact ⟨t, ⟨r, hr, ht⟩, hu⟩
    · rintro ⟨t, ⟨r, hr, ht⟩, hu⟩
      exact ⟨r, hr, t, ht, hu⟩

/-! ## Invariants -/

/-- What every step keeps, every run keeps. -/
theorem run_invariant (P : σ → Prop)
    (hstep : ∀ s a t, P s → m.step s a = some t → P t)
    (hs : P s) (hrun : m.run s as = some t) : P t := by
  induction as generalizing s with
  | nil =>
    cases hrun
    exact hs
  | cons a as ih =>
    obtain ⟨r, hr, hrest⟩ := run_cons.1 hrun
    exact ih (hstep s a r hs hr) hrest

/-- A measure that no step lowers is not lowered by a run. -/
theorem run_mono {β : Type*} [Preorder β] {μ : σ → β}
    (hmono : ∀ s a t, m.step s a = some t → μ s ≤ μ t)
    (hrun : m.run s as = some t) : μ s ≤ μ t :=
  run_invariant (fun r => μ s ≤ μ r)
    (fun r a t hr hstep => hr.trans (hmono r a t hstep)) le_rfl hrun

/-- What every step keeps while the measure stays below the bound, a run
keeps while the measure stays below the bound. -/
theorem run_invariant_below {β : Type*} [Preorder β] (P : σ → Prop)
    (μ : σ → β) {bound : β}
    (hmono : ∀ s a t, m.step s a = some t → μ s ≤ μ t)
    (hstep : ∀ s a t, P s → μ t < bound → m.step s a = some t → P t)
    (hs : P s) (hrun : m.run s as = some t) (ht : μ t < bound) : P t := by
  induction as generalizing s with
  | nil =>
    cases hrun
    exact hs
  | cons a as ih =>
    obtain ⟨r, hr, hrest⟩ := run_cons.1 hrun
    have hrt : μ r ≤ μ t := run_mono hmono hrest
    exact ih (hstep s a r hs (lt_of_le_of_lt hrt ht) hr) hrest

/-! ## Guards -/

/-- The machine that takes only the steps that meet the condition. -/
def guard (m : Machine σ α) (c : σ → α → Prop)
    [∀ s a, Decidable (c s a)] : Machine σ α where
  step s a := if c s a then m.step s a else none

variable {c : σ → α → Prop} [∀ s a, Decidable (c s a)]

theorem guard_step :
    (m.guard c).step s a = some t ↔ c s a ∧ m.step s a = some t := by
  rw [guard]
  by_cases h : c s a
  · simp [h]
  · simp [h]

/-! ## Lockstep -/

/-- A second machine that follows every step in the relation follows every
run in it. -/
theorem run_lockstep {τ : Type*} {n : Machine τ α} (R : σ → τ → Prop)
    (hstep : ∀ s t a s', R s t → m.step s a = some s' →
      ∃ t', n.step t a = some t' ∧ R s' t')
    {s' : σ} {t : τ} (h : R s t) (hrun : m.run s as = some s') :
    ∃ t', n.run t as = some t' ∧ R s' t' := by
  induction as generalizing s t with
  | nil =>
    cases hrun
    exact ⟨t, rfl, h⟩
  | cons a as ih =>
    obtain ⟨r, hr, hrest⟩ := run_cons.1 hrun
    obtain ⟨q, hq, hrq⟩ := hstep s t a r h hr
    obtain ⟨t', ht', hlast⟩ := ih hrq hrest
    exact ⟨t', run_cons.2 ⟨q, hq, ht'⟩, hlast⟩

end Machine
