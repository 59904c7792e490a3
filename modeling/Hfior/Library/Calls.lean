import Mathlib.Tactic.TypeStar

/-!
# Sequences of calls

A call takes a state to a reply and a next state.  `runCalls` makes one call
after the other and collects the replies.  `runCalls_simulates` compares two
implementations: where a relation between their states is kept and the
replies agree call by call, they agree on every sequence of calls.
-/

variable {σ τ α β : Type*}

/-- The replies to a list of calls, and the state behind them. -/
def runCalls (call : σ → α → β × σ) (s : σ) : List α → List β × σ
  | [] => ([], s)
  | a :: as =>
    let r := call s a
    let rest := runCalls call r.2 as
    (r.1 :: rest.1, rest.2)

/-- Two implementations whose replies agree call by call agree on every
sequence of calls. -/
theorem runCalls_simulates {call : σ → α → β × σ} {call' : τ → α → β × τ}
    (R : σ → τ → Prop)
    (hcall : ∀ s t a, R s t → (call s a).1 = (call' t a).1 ∧ R (call s a).2 (call' t a).2)
    {s : σ} {t : τ} (h : R s t) (as : List α) :
    (runCalls call s as).1 = (runCalls call' t as).1 ∧
      R (runCalls call s as).2 (runCalls call' t as).2 := by
  induction as generalizing s t with
  | nil => exact ⟨rfl, h⟩
  | cons a as ih =>
    obtain ⟨hreply, hnext⟩ := hcall s t a h
    obtain ⟨hrest, hlast⟩ := ih hnext
    simp only [runCalls]
    rw [hreply, hrest]
    exact ⟨rfl, hlast⟩
